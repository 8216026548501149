import LineShell.Proofs.Bookkeeping
import LineShell.Proofs.Forgery
import LineShell.Proofs.Overlay
import LineShell.Proofs.Splitting
import LineShell.Proofs.Targets

/-!
# Depths — where the limit on substitutions shows

Substitutions may be nested only so deep. A substitution with as many others around it as the limit
allows is refused, and no other one is. So the limit does not show at all in a run that never goes
that deep: any larger limit gives the same run, provided that programs do the same again.

* `Session.ComesTo` — a substitution that a run comes to, with the number of substitutions around
  it;
* `Refuses` — a substitution is reported, stands for nothing and is not run, and the flag goes up;
* `Occurs.holds` — a substitution that a run comes to stands that deep in the pipeline;
* `Session.ComesTo.refuses_iff`, `Session.ComesTo.unexpanded` — which substitutions are refused, and
  what becomes of their stages;
* `Session.restaged`, `runWithin_tracks` — a run under another limit, with other programs;
* `runWithin_repeats` — a run at another time from which on programs do the same;
* `limit_refuses_at_its_depth` — all of this for one pipeline.
-/

namespace LineShell

/-! ## Refusals -/

/-- What the shell says about a substitution that is refused. -/
def refusalText (limit : Nat) : String :=
  s!"minsh: {(Error.overLimit (.substitutionDepth limit)).message}"

/-- The substitution is reported and stands for nothing, the flag for failed expansions goes up, and
that is all that happens. -/
def Refuses (sub : Substitution) (limit : Nat) (q : Pipeline) (wiring : Wiring) (err : Sink)
    (t : Session) :
    Prop :=
  ∃ err' u, runOn (Exec.report err (refusalText limit)) t = (.ok err', u) ∧
    runOn (sub q wiring err) t = (.ok ("", err'), { u with expansionFailed := true })

section Refusals

variable {q : Pipeline} {wiring : Wiring} {err err' : Sink} {t u : Session} {levels : Nat}
  {bs : Bytes}

/-- A refusal is reported, and then the flag goes up. -/
theorem runOn_refuse :
    runOn (refuse q wiring err) t = runOn (do
      let err ← Exec.report err (refusalText t.limits.maxDepth)
      modify fun s => { s with expansionFailed := true }
      return ("", err)) t := by
  rw [refuse, runOn_bind_of_ok (runOn_get t)]
  rfl

theorem Content.size_append (c : Content) (bs : Bytes) :
    (c.append bs).size = c.size + bs.length := by
  simp [Content.size, Content.append, Nat.add_assoc]

/-- A write that adds bytes never leaves disk and handle as they were. -/
theorem Disk.write_ne_self {d : Disk} {handle : Handle} (hbs : 0 < bs.length) :
    d.write handle bs ≠ .ok (d, handle) := by
  intro h
  have hsome : bs.isEmpty = false := by
    cases bs with
    | nil => cases hbs
    | cons _ _ => rfl
  simp only [Disk.write, hsome, Bool.false_eq_true, if_false] at h
  split at h
  next content mode modified hget =>
    simp only [Except.ok.injEq, Prod.mk.injEq] at h
    rcases handle with ⟨route, position, append⟩
    cases append with
    | true =>
        -- Writing to the end makes the file longer, so the disk is another one.
        have hbefore : d.body? route = some (.file content, mode) := by
          simp [Disk.body?, hget, Entry.body]
        have hbody := congrArg (fun d => d.body? route) h.1
        simp only [if_true] at hbody
        rw [Disk.body?_stamp, Disk.body?_set, if_pos rfl, hbefore] at hbody
        have hcontent : content.writeAt content.size bs = content := by
          simpa [Entry.body] using hbody
        have hsize := congrArg Content.size hcontent
        simp only [Content.writeAt, if_true, Content.size_append] at hsize
        omega
    | false =>
        have hposition := congrArg Handle.position h.2
        simp only [Bool.false_eq_true, if_false] at hposition
        omega
  next => cases h
  next =>
    simp only [Except.ok.injEq, Prod.mk.injEq] at h
    have hposition := congrArg Handle.position h.2
    dsimp only at hposition
    omega

/-- What an outlet accepts stands behind what it had. -/
theorem Outlet.written_write {o o' : Outlet} (h : o.write bs = (o', .ok ())) :
    o'.written = o.written ++ bs := by
  unfold Outlet.write at h
  split at h
  · cases h
  · cases h
    rfl
  · cases h
    rfl

theorem Outlet.write_ne_self {o : Outlet} (hbs : 0 < bs.length) : o.write bs ≠ (o, .ok ()) := by
  intro h
  have hlength := congrArg List.length (Outlet.written_write h)
  rw [List.length_append] at hlength
  omega

/-- A write that adds bytes never leaves sink and host as they were. -/
theorem Sink.write_ne_self {sink : Sink} {h : Host} (hbs : 0 < bs.length) :
    sink.write bs h ≠ (sink, h, .ok ()) := by
  intro heq
  -- Bytes that are taken leave a trace in the stream, the buffer or the file that took them.
  cases sink with
  | stdout =>
      simp only [Sink.write, Prod.mk.injEq] at heq
      have hout := congrArg Host.stdout heq.2.1
      exact Outlet.write_ne_self hbs (Prod.ext hout heq.2.2)
  | stderr =>
      simp only [Sink.write, Prod.mk.injEq] at heq
      have herr := congrArg Host.stderr heq.2.1
      exact Outlet.write_ne_self hbs (Prod.ext herr heq.2.2)
  | buffer bytes =>
      simp only [Sink.write, Prod.mk.injEq, Sink.buffer.injEq, List.append_right_eq_self] at heq
      simp [heq.1] at hbs
  | file handle =>
      simp only [Sink.write] at heq
      rcases hw : h.disk.write handle bs with fault | ⟨disk, handle'⟩ <;> rw [hw] at heq
      · cases heq
      · simp only [Prod.mk.injEq, Sink.file.injEq] at heq
        have hdisk := congrArg Host.disk heq.2.1
        dsimp only at hdisk
        rw [hdisk, heq.1] at hw
        exact Disk.write_ne_self hbs hw

/-- A write that goes well can be seen, at the sink or in the session. -/
theorem runOn_write_ne_self (hbs : 0 < bs.length) : runOn (Exec.write err bs) t ≠ (.ok err, t) := by
  intro h
  rw [runOn_write] at h
  split at h
  next sink host heq =>
    simp only [Prod.mk.injEq, Except.ok.injEq] at h
    have hhost := congrArg (fun t : Session => t.scene.host) h.2
    dsimp only [Session.withHost] at hhost
    rw [h.1, hhost] at heq
    exact Sink.write_ne_self hbs heq
  next => cases h

theorem refusalText_bytes (limit : Nat) : 0 < (Utf8.encode (refusalText limit ++ "\n")).length := by
  rw [Utf8.encode_append, List.length_append]
  exact Nat.lt_add_left _ (by decide)

/-- With a level left, a substitution is not refused: if it comes to its end, the flag is down
again, unless it is empty, and then nothing is reported. -/
theorem not_refuses_nest {limit : Nat} :
    ¬ Refuses (nest (runWithin levels)) limit q wiring err t := by
  rintro ⟨err', u, hreport, hnest⟩
  rcases nest_eq_ok hnest with ⟨result, u', hinner, hpass⟩
  by_cases hq : q = []
  · subst hq
    rw [runWithin_nil] at hinner
    cases hinner
    have hquiet : passOn err ({} : Result).stderr = pure err := rfl
    rw [hquiet, runOn_pure] at hpass
    have hback : t.enter.leave = t := rfl
    rw [hback, Prod.mk.injEq, Except.ok.injEq] at hpass
    rcases hpass with ⟨rfl, hsame⟩
    -- Nothing was changed, and yet something was written.
    have hflag : u.expansionFailed = t.expansionFailed :=
      Session.flag_eq_of_ledger_eq ((report_keeps_ledger _ _).eq hreport)
    have hup : t.expansionFailed = true := by rw [hsame]
    have hu : u = t := by
      rw [hsame]
      rw [hup] at hflag
      rw [← hflag]
    rw [hu] at hreport
    exact runOn_write_ne_self (refusalText_bytes limit) hreport
  · have hdown : u'.expansionFailed = false := runWithin_flag_of_ne_nil hq hinner
    have hup : true = u'.expansionFailed :=
      Session.flag_eq_of_ledger_eq ((passOn_keeps_ledger _ _).eq hpass)
    rw [hdown] at hup
    cases hup

/-- Without any level left it is refused, if that can be written. -/
theorem refuses_refuse_iff :
    Refuses refuse t.limits.maxDepth q wiring err t ↔
      ∃ err' u, runOn (Exec.report err (refusalText t.limits.maxDepth)) t = (.ok err', u) := by
  constructor
  · rintro ⟨err', u, hreport, -⟩
    exact ⟨err', u, hreport⟩
  · rintro ⟨err', u, hreport⟩
    refine ⟨err', u, hreport, ?_⟩
    rw [runOn_refuse, runOn_bind_of_ok hreport]
    rfl

end Refusals

/-! ## Substitutions at their depth -/

/-- While `p` runs in the session `s`, the stage `v` comes to the substitution `q` with so many
substitutions around it; `err` and `t` are the error sink and the session at that moment. -/
structure Session.ComesTo (s : Session) (p : Pipeline) (wiring : Wiring) (around : Nat) (w : Wiring)
    (v : Visit) (q : Pipeline) (err : Sink) (t : Session) : Prop where
  within : around ≤ s.room
  stage : Occurs s.room p wiring s (s.room - around) w v
  entered : v.Enters (substitutionWithin (s.room - around)) w q err t

section Depths

variable {s t : Session} {p q : Pipeline} {wiring w : Wiring} {around levels rest : Nat} {v : Visit}
  {err : Sink}

/-- Coming to a nested pipeline moves the depth and nothing else of the frame. -/
theorem Session.ComesTo.frame_eq (h : s.ComesTo p wiring around w v q err t) :
    t.frame = { s.frame with depth := s.depth + around } := by
  have hinner := h.entered.frame_eq (substitutionWithin_keepsFrame _)
  have hle := h.within
  have haround : s.room - (s.room - around) = around := by omega
  rw [hinner, h.stage.frame_eq, haround]

/-- What is expanded in a stage that is run, stands that deep in the pipeline. -/
theorem Occurs.holds (h : Occurs levels p wiring s rest w v)
    (hpart : .substitution q ∈ v.command.parts) :
    p.Holds (levels - rest + 1) q := by
  induction h with
  | here visited =>
      rw [Nat.sub_self]
      exact .of_parts (command_mem_of_visits visited) hpart (.here q)
  | inside visited entered within ih =>
      rw [Nat.succ_sub within.rest_le]
      exact .of_parts (command_mem_of_visits visited) entered.mem_parts (ih hpart)

/-- The command of a stage does not run once one of its substitutions was refused. -/
theorem not_expanded_of_enters (h : v.Enters refuse w q err t) {stage : Stage String} {err' : Sink}
    {u : Session} (hexp : v.Expanded refuse w stage err' u) : u.expansionFailed = true := by
  rcases expandStage_eq_ok hexp with ⟨text, hword⟩
  exact (expandWord_refuse_flag hword).2 (.inr ⟨q, h.mem_parts⟩)

/-- A stage that enters a refused pipeline never runs, and ends with status one. -/
theorem Visit.Enters.unexpanded (h : v.Enters refuse w q err t) (hrun : v.Runs refuse w) :
    (¬ ∃ stage files err u, v.Ready refuse w stage files err u) ∧
      ∀ ended, v.result = .ok ended → v.Meets refuse w .unexpanded ended ∧
        ended.outcome = .finished 1 := by
  constructor
  · rintro ⟨stage, files, err', u, u', hexp, hdown, -⟩
    rw [not_expanded_of_enters h hexp] at hdown
    cases hdown
  · intro ended hr
    rcases hrun.exists_meets hr with ⟨fate, hmeets⟩
    have houtcome := hmeets.outcome_eq
    -- Every other fate is met with the flag down.
    cases hmeets with
    | unexpanded expanded failed => exact ⟨.unexpanded expanded failed, rfl⟩
    | unopened expanded sound _ _ =>
        rw [not_expanded_of_enters h expanded] at sound
        cases sound
    | nameless ready _ =>
        rcases ready with ⟨u, expanded, sound, -⟩
        rw [not_expanded_of_enters h expanded] at sound
        cases sound
    | command ready _ _ _ =>
        rcases ready with ⟨u, expanded, sound, -⟩
        rw [not_expanded_of_enters h expanded] at sound
        cases sound

namespace Session.ComesTo

/-- The limit is the same at every depth. -/
theorem maxDepth_eq (h : s.ComesTo p wiring around w v q err t) :
    t.limits.maxDepth = s.limits.maxDepth := by
  have hlimits := congrArg (fun s : Session => s.limits.maxDepth) h.frame_eq
  exact hlimits

/-- The session counts the levels that were entered. -/
theorem depth_eq (h : s.ComesTo p wiring around w v q err t) : t.depth = s.depth + around := by
  have hdepths := congrArg Session.depth h.frame_eq
  exact hdepths

/-- What a run comes to stands in the pipeline, at that depth. -/
theorem holds (h : s.ComesTo p wiring around w v q err t) : p.Holds (around + 1) q := by
  have hheld := h.stage.holds h.entered.mem_parts
  rw [Nat.sub_sub_self h.within] at hheld
  exact hheld

/-- A substitution is refused if it uses up the room of the session, and no other one is. -/
theorem refuses_iff (h : s.ComesTo p wiring around w v q err t) :
    Refuses (substitutionWithin (s.room - around)) s.limits.maxDepth q w err t ↔
      around = s.room ∧ ∃ err' u,
        runOn (Exec.report err (refusalText s.limits.maxDepth)) t = (.ok err', u) := by
  have hwithin := h.within
  -- The number of levels that are left tells the two ways to substitute apart.
  rcases hleft : s.room - around with _ | levels
  · have haround : around = s.room := by omega
    have hrefuses := @refuses_refuse_iff q w err t
    rw [h.maxDepth_eq] at hrefuses
    rw [substitutionWithin, hrefuses]
    exact ⟨fun hsaid => ⟨haround, hsaid⟩, And.right⟩
  · constructor
    · intro hrefuses
      exact (not_refuses_nest hrefuses).elim
    · rintro ⟨haround, -⟩
      omega

/-- The stage of a substitution that is refused does not run its command, and fails. -/
theorem unexpanded (h : s.ComesTo p wiring around w v q err t) (haround : around = s.room) :
    (¬ ∃ stage files err u, v.Ready (substitutionWithin (s.room - around)) w stage files err u) ∧
      ∀ ended, v.result = .ok ended →
        v.Meets (substitutionWithin (s.room - around)) w .unexpanded ended ∧
        ended.outcome = .finished 1 := by
  have hentered := h.entered
  have hstage := h.stage
  have hleft : s.room - around = 0 := by omega
  rw [hleft] at hentered hstage ⊢
  exact hentered.unexpanded hstage.runs

/-- If the refusal cannot be written, the run ends with the error. -/
theorem ends_of_unreported (h : s.ComesTo p wiring around w v q err t) (haround : around = s.room)
    {e : Error} {u : Session} (hreport : runOn (Exec.report err (refusalText s.limits.maxDepth)) t =
    (.error e, u)) :
    ∃ t', runOn (runWithin s.room p wiring) s = (.error e, t') := by
  have hentered := h.entered
  have hstage := h.stage
  have hleft : s.room - around = 0 := by omega
  rw [hleft] at hentered hstage
  have hrefuse : runOn (substitutionWithin 0 q w err) t = (.error e, u) := by
    rw [substitutionWithin, runOn_refuse, h.maxDepth_eq]
    exact runOn_bind_of_error hreport
  rcases hstage.runs_into (hentered.result hstage.runs hrefuse).1 with ⟨t', hrun, -⟩
  exact ⟨t', hrun⟩

end Session.ComesTo

end Depths

/-! ## Behind the scene -/

/-- A session with another limit on substitutions and other programs, of which so many more were
launched. -/
def Session.restaged (s : Session) (limit : Nat) (programs : Programs) (more : Nat) : Session :=
  { s with limits := { s.limits with maxDepth := limit }, programs, launches := s.launches + more }

/-- Restaging a session changes nothing that its scene shows. -/
theorem overlay_restaged (limit : Nat) (programs : Programs) (more : Nat) :
    Overlay fun s => s.restaged limit programs more where
  env _ := rfl
  cwd _ := rfl
  disk _ := rfl
  table _ := rfl
  policy _ := rfl
  flag _ := rfl
  noting _ _ := rfl
  diskSet _ _ := rfl
  flagSet _ _ := rfl
  enter _ := rfl
  leave _ := rfl
  write sink bs s := by
    unfold Tracks
    rw [runOn_write, runOn_write]
    have hhost : (s.restaged limit programs more).scene.host = s.scene.host := rfl
    rw [hhost]
    rcases sink.write bs s.scene.host with ⟨sink', host, fault | _⟩ <;> rfl

section Restaging

variable {limit more : Nat} {programs : Programs} {s : Session}

/-- Builtins do not read limits, programs or launches. -/
theorem runBuiltin_tracks_restaged (b : Builtin) (name : String) (args : List String)
    (stdin : Option Bytes) (out err : Sink) :
    Tracks (fun s => s.restaged limit programs more) (runBuiltin b name args stdin out err)
      (runBuiltin b name args stdin out err) s := by
  apply @runBuiltin_tracks _ (overlay_restaged limit programs more) s id
  · rfl
  · intro x
    rfl
  · rfl

/-- Noting unread input reads nothing of the stage setting. -/
theorem noteUnread_tracks (input : Feed) (unread : Option Int) :
    Tracks (fun s => s.restaged limit programs more) (noteUnread input unread)
      (noteUnread input unread) s := by
  unfold noteUnread
  split
  · exact note_tracks (overlay_restaged limit programs more) _
  · exact .pure _

/-- A program is not told the limit, and it does the same if the other programs then do what these
do now. -/
theorem runProgram_tracks_restaged
    (hstart : programs.start (s.launches + more) = s.programs.start s.launches) (name : String)
    (args : List String) (input : Feed) (out err : Sink) :
    Tracks (fun s => s.restaged limit programs more) (runProgram name args input out err)
      (runProgram name args input out err) s := by
  have hg := overlay_restaged limit programs more
  apply Tracks.get_bind
  refine .bind (note_tracks hg _) fun _ _ _ => ?_
  refine .bind (.modify ?_) fun _ _ _ => ?_
  · unfold Session.launching Session.restaged
    dsimp only
    rw [Nat.add_right_comm]
  -- The program sees the same launch, host and sinks, so it leaves the same.
  have hdoes : (s.restaged limit programs more).start name args input out err =
    s.start name args input out err :=
    congrArg (fun start => start (s.launch name args) s.scene.host input out.handedOut
      err.handedOut) hstart
  have hhost : (s.restaged limit programs more).scene.host = s.scene.host := rfl
  have htimeout : (s.restaged limit programs more).limits.timeout = s.limits.timeout := rfl
  rw [hdoes, hhost, htimeout]
  cases s.start name args input out err with
  | error fault =>
      refine .bind (note_tracks hg _) fun _ _ _ => ?_
      exact .bind (report_tracks hg _) fun _ _ _ => .pure _
  | ok left =>
      refine .bind (.modify rfl) fun _ _ _ => ?_
      refine .bind (noteUnread_tracks _ _) fun _ _ _ => ?_
      split
      · refine .bind (note_tracks hg _) fun _ _ _ => ?_
        exact .bind (report_tracks hg _) fun _ _ _ => .pure _
      · exact .bind (note_tracks hg _) fun _ _ _ => .pure _

/-- Commands run alike where the next launch gives the same. -/
theorem runCommand_tracks_restaged
    (hstart : programs.start (s.launches + more) = s.programs.start s.launches)
    (stage : Stage String) (files : StageFiles) (input : Input) (out err : Sink) :
    Tracks (fun s => s.restaged limit programs more) (runCommand stage files input out err)
      (runCommand stage files input out err) s := by
  apply runCommand_tracks (overlay_restaged limit programs more)
  · intro b stdin _
    exact runBuiltin_tracks_restaged b _ _ stdin _ _
  · intro _
    exact runProgram_tracks_restaged hstart _ _ _ _ _

/-- A run does the same if the other programs do what these do, and substitutions that have no level
left go the same way. -/
theorem runWithin_tracks {levels levels' : Nat} {p : Pipeline} {wiring : Wiring}
    (hle : levels ≤ levels') (hstart : ∀ n, programs.start (n + more) = s.programs.start n)
    (hlast : ∀ w v q err t, Occurs levels p wiring s 0 w v → v.Enters refuse w q err t →
      Tracks (fun s => s.restaged limit programs more) (refuse q w err)
        (substitutionWithin (levels' - levels) q w err) t) :
    Tracks (fun s => s.restaged limit programs more) (runWithin levels p wiring)
      (runWithin levels' p wiring) s := by
  have hg := overlay_restaged limit programs more
  induction levels generalizing levels' p wiring s with
  | zero =>
      rw [runWithin_eq_runWith, runWithin_eq_runWith]
      -- At the limit every substitution is refused, and what becomes of it is the hypothesis.
      refine runWith_tracks hg fun v hv => Visit.tracks hg ?_ ?_
      · intro q a t hentered
        exact hlast _ _ _ _ _ (.here hv) hentered
      · intro stage files a t hready _
        have hsame := (hready.frame_eq refuse_keepsFrame).trans
          (visitsFrom_frame refuse_keepsFrame hv)
        refine runCommand_tracks_restaged ?_ stage files _ _ _
        exact (hstart _).trans (by rw [← Session.programs_eq_of_frame_eq hsame]; rfl)
  | succ levels ih =>
      cases levels' with
      | zero => cases hle
      | succ levels' =>
          have hframe := substitutionWithin_keepsFrame (levels + 1)
          rw [Nat.succ_sub_succ] at hlast
          rw [runWithin_eq_runWith, runWithin_eq_runWith]
          refine runWith_tracks hg fun v hv => Visit.tracks hg ?_ ?_
          · intro q a t hentered
            have hsame : t.frame = s.frame :=
              (hentered.frame_eq hframe).trans (visitsFrom_frame hframe hv)
            apply nest_tracks hg
            -- A substitution runs one level down on both sides, so the induction hypothesis is
            -- about it.
            refine ih (Nat.le_of_succ_le_succ hle) ?_ ?_
            · have hprograms : t.enter.programs = s.programs :=
                (Session.programs_eq_of_frame_eq hsame :)
              rw [hprograms]
              exact hstart
            · -- What the inner run comes to, the outer one comes to.
              intro w v' q' err t' hv'
              exact hlast _ _ _ _ _ (.inside hv hentered hv')
          · intro stage files a t hready _
            have hsame := (hready.frame_eq hframe).trans (visitsFrom_frame hframe hv)
            refine runCommand_tracks_restaged ?_ stage files _ _ _
            exact (hstart _).trans (by rw [← Session.programs_eq_of_frame_eq hsame]; rfl)

/-- Refusing is the same under the same limit. -/
theorem refuse_tracks_restaged (q : Pipeline) (wiring : Wiring) (err : Sink)
    (hlimit : s.limits.maxDepth = limit) :
    Tracks (fun s => s.restaged limit programs more) (refuse q wiring err) (refuse q wiring err)
      s := by
  apply Tracks.get_bind
  rw [show (s.restaged limit programs more).limits.maxDepth = s.limits.maxDepth from hlimit.symm]
  refine .bind (report_tracks (overlay_restaged limit programs more) _) fun _ _ _ => ?_
  exact .bind (.modify rfl) fun _ _ _ => .pure _

end Restaging

/-! ## Larger limits, other times -/

def Session.withMaxDepth (s : Session) (limit : Nat) : Session :=
  { s with limits := { s.limits with maxDepth := limit } }

/-- The programs that are there after `n` launches. -/
def Programs.later (programs : Programs) (n : Nat) : Programs where
  start i := programs.start (n + i)

/-- Programs that repeat are the same from either launch on. -/
theorem Programs.Repeats.later_eq {programs : Programs} {m n : Nat} (h : programs.Repeats m n) :
    programs.later m = programs.later n := by
  unfold Programs.later
  congr 1
  funext i
  exact h i

/-- A run from a session that has launched nothing yet, taken for a run from one that has. -/
theorem runWithin_at {levels : Nat} {p : Pipeline} {wiring : Wiring} (s : Session)
    (launches : Nat) :
    runOn (runWithin levels p wiring) { s with launches } =
      let (r, t) := runOn (runWithin levels p wiring)
        { s with programs := s.programs.later launches, launches := 0 }
      (r, t.restaged s.limits.maxDepth s.programs launches) := by
  have hstart : ∀ n, s.programs.start (n + launches) = (s.programs.later launches).start n := by
    intro n
    rw [Nat.add_comm]
    rfl
  have htracks := @runWithin_tracks s.limits.maxDepth launches s.programs
    { s with programs := s.programs.later launches, launches := 0 } levels levels p wiring
      (Nat.le_refl _) hstart ?_
  · unfold Tracks at htracks
    have hfrom : Session.restaged { s with programs := s.programs.later launches, launches := 0 }
        s.limits.maxDepth s.programs launches = { s with launches } := by
      unfold Session.restaged
      dsimp only
      rw [Nat.zero_add]
    rw [← hfrom]
    exact htracks
  · intro w v q err t hv hentered
    rw [Nat.sub_self]
    refine refuse_tracks_restaged q w err ?_
    have hlimits := (hentered.frame_eq refuse_keepsFrame).trans hv.frame_eq
    have hmaxDepth := congrArg (fun s : Session => s.limits.maxDepth) hlimits
    exact hmaxDepth

/-- A run goes the same way at another time from which on programs do the same. -/
theorem runWithin_repeats {levels launches : Nat} {p : Pipeline} {wiring : Wiring} {s t : Session}
    {r : Except Error Result} (hrepeats : s.programs.Repeats s.launches launches)
    (hrun : runOn (runWithin levels p wiring) s = (r, t)) :
    ∃ n, t.launches = s.launches + n ∧
      runOn (runWithin levels p wiring) { s with launches } =
        (r, { t with launches := launches + n }) := by
  have hnow := @runWithin_at levels p wiring s s.launches
  have hthen := @runWithin_at levels p wiring s launches
  rw [← hrepeats.later_eq] at hthen
  rw [show ({ s with launches := s.launches } : Session) = s from rfl, hrun] at hnow
  rcases hbase : runOn (runWithin levels p wiring)
    { s with programs := s.programs.later s.launches, launches := 0 } with ⟨r', u⟩
  rw [hbase] at hnow hthen
  cases hnow
  refine ⟨u.launches, Nat.add_comm _ _, ?_⟩
  rw [hthen]
  dsimp only [Session.restaged]
  rw [Nat.add_comm launches]

/-! ## One pipeline -/

/-- To execute a pipeline is to run it with the room that is left. -/
theorem runOn_execute (p : Pipeline) (wiring : Wiring) (s : Session) :
    runOn (Session.execute p wiring) s = runOn (runWithin s.room p wiring) s := by
  rw [Session.execute, runOn_bind_of_ok (runOn_get s)]

/-- A run that never uses up the room of the session goes the same way under a larger limit. -/
theorem runOn_execute_withMaxDepth {p : Pipeline} {wiring : Wiring} {s t : Session} {limit : Nat}
    {r : Except Error Result} (hle : s.room ≤ limit)
    (hnone : ∀ w v q err t, ¬ s.ComesTo p wiring s.room w v q err t)
    (hrun : runOn (runWithin s.room p wiring) s = (r, t)) :
    runOn (runWithin limit p wiring) (s.withMaxDepth limit) = (r, t.withMaxDepth limit) := by
  -- A stage with no level left is one that is come to with all the room used up.
  have hdeep : ∀ w v q err t, Occurs s.room p wiring s 0 w v → ¬ v.Enters refuse w q err t := by
    intro w v q err t hv hentered
    have hzero : s.room - s.room = 0 := Nat.sub_self _
    refine hnone w v q err t ⟨Nat.le_refl _, ?_, ?_⟩
    · rw [hzero]
      exact hv
    · rw [hzero]
      exact hentered
  have htracks := @runWithin_tracks limit 0 s.programs s s.room limit p wiring hle (fun _ => rfl)
    fun w v q err t hv hentered => (hdeep w v q err t hv hentered).elim
  have hprograms : t.programs = s.programs :=
    Session.programs_eq_of_frame_eq ((runWithin_keeps_frame s.room p wiring).eq hrun)
  unfold Tracks at htracks
  rw [hrun] at htracks
  calc
    runOn (runWithin limit p wiring) (s.withMaxDepth limit)
    _ = (r, t.restaged limit s.programs 0) := htracks
    _ = (r, t.withMaxDepth limit) := by rw [← hprograms]; rfl

/-- In a session that is not inside a substitution, a substitution that a run comes to has at most
as many others around it as the limit allows, and it is refused if and only if it has that many and
the refusal can be written; if that cannot be written, the run ends with the error. The stage of a
substitution that is refused does not run its command, and fails. A pipeline in which substitutions
are nested no deeper than the limit comes to no refusal. And a run that comes to none goes the same
way under any larger limit, at any time from which on programs do the same: with the same result
and, but for the limit and the time, the same session at the end. -/
theorem limit_refuses_at_its_depth (p : Pipeline) (wiring : Wiring) (s : Session)
    (hdepth : s.depth = 0) :
    (∀ around w v q err t, s.ComesTo p wiring around w v q err t →
      around ≤ s.limits.maxDepth ∧ t.depth = around ∧
      (Refuses (substitutionWithin (s.room - around)) s.limits.maxDepth q w err t ↔
        around = s.limits.maxDepth ∧
          ∃ err' u, runOn (Exec.report err (refusalText s.limits.maxDepth)) t = (.ok err', u)) ∧
      (around = s.limits.maxDepth →
        (¬ ∃ stage files err u, v.Ready (substitutionWithin (s.room - around)) w stage files err
          u) ∧
        (∀ ended, v.result = .ok ended →
          v.Meets (substitutionWithin (s.room - around)) w .unexpanded ended ∧
          ended.outcome = .finished 1) ∧
        ∀ e u, runOn (Exec.report err (refusalText s.limits.maxDepth)) t = (.error e, u) →
          ∃ t', runOn (Session.execute p wiring) s = (.error e, t'))) ∧
    ((∀ depth q, p.Holds depth q → depth ≤ s.limits.maxDepth) →
      ∀ w v q err t, ¬ s.ComesTo p wiring s.limits.maxDepth w v q err t) ∧
    ((∀ w v q err t, ¬ s.ComesTo p wiring s.limits.maxDepth w v q err t) →
      ∀ limit, s.limits.maxDepth ≤ limit → ∀ launches, s.programs.Repeats s.launches launches →
        ∀ r t, runOn (Session.execute p wiring) s = (r, t) →
          ∃ n, t.launches = s.launches + n ∧
            runOn (Session.execute p wiring) { s.withMaxDepth limit with launches } =
              (r, { t.withMaxDepth limit with launches := launches + n })) := by
  have hroom : s.room = s.limits.maxDepth := by rw [Session.room, hdepth, Nat.sub_zero]
  rw [← hroom]
  refine ⟨?_, ?_, ?_⟩
  · intro around w v q err t hcome
    refine ⟨hcome.within, ?_, ?_, ?_⟩
    · rw [hcome.depth_eq, hdepth, Nat.zero_add]
    · -- Where the room is used up, `refuse` stands in for the run, and nowhere before.
      have hrefuses := hcome.refuses_iff
      rw [← hroom] at hrefuses
      exact hrefuses
    · intro haround
      rcases hcome.unexpanded haround with ⟨hnever, hfails⟩
      refine ⟨hnever, hfails, ?_⟩
      intro e u hreport
      rw [hroom] at hreport
      rw [runOn_execute]
      exact hcome.ends_of_unreported haround hreport
  · intro hshallow w v q err t hcome
    exact Nat.not_succ_le_self _ (hshallow _ _ hcome.holds)
  · intro hnone limit hle launches hrepeats r t hrun
    rw [runOn_execute] at hrun
    -- With more room the run is that of the larger limit, and it is tracked launch by launch.
    have hlarger : ({ s.withMaxDepth limit with launches } : Session).room = limit := by
      rw [Session.room]
      exact congrArg (limit - ·) hdepth
    rw [runOn_execute, hlarger]
    exact runWithin_repeats (s := s.withMaxDepth limit) hrepeats
      (runOn_execute_withMaxDepth hle hnone hrun)

/-- The line `echo $(echo $(grumble))`. -/
def nestedGrumble : Pipeline :=
  [echoInner [echoInner [grumble]]]

theorem holds_grumble {depth : Nat} {q : Pipeline} (h : Pipeline.Holds [grumble] depth q) :
    depth = 0 := by
  cases h with
  | here => rfl
  | inside hs hw hpart _ =>
      simp only [List.mem_singleton] at hs
      subst hs
      simp [Stage.words, grumble] at hw
      subst hw
      simp at hpart

theorem holds_echoInner {p q : Pipeline} {depth bound : Nat}
    (hp : ∀ depth q, p.Holds depth q → depth ≤ bound) (h : Pipeline.Holds [echoInner p] depth q) :
    depth ≤ bound + 1 := by
  cases h with
  | here => exact Nat.zero_le _
  | inside hs hw hpart hinner =>
      simp only [List.mem_singleton] at hs
      subst hs
      simp [Stage.words, echoInner] at hw
      rcases hw with rfl | rfl
      · simp at hpart
      · simp only [List.mem_singleton, Part.substitution.injEq] at hpart
        subst hpart
        exact Nat.succ_le_succ (hp _ _ hinner)

/-- Two levels are enough for it, so with more it goes the same way, although the program is
launched at another time. With one level its inner substitution is refused. -/
theorem nested_grumble_needs_two_levels :
    (∃ t, runOn (Session.execute nestedGrumble .captured) (grumblingSession.withMaxDepth 2) =
        (.ok { stdout := "\n", stderr := "again\n" }, t) ∧
      runOn (Session.execute nestedGrumble .captured)
        { grumblingSession.withMaxDepth 64 with launches := 7 } =
        (.ok { stdout := "\n", stderr := "again\n" },
          { t.withMaxDepth 64 with launches := 7 + 1 })) ∧
    (runOn (Session.execute nestedGrumble .captured) (grumblingSession.withMaxDepth 1)).1.toOption =
      some { stdout := "\n", stderr := refusalText 1 ++ "\n" } := by
  have hshallow : ∀ depth q, nestedGrumble.Holds depth q → depth ≤ 2 :=
    fun _ _ h => holds_echoInner (fun _ _ h =>
      holds_echoInner (fun _ _ h => Nat.le_of_eq (holds_grumble h)) h) h
  have hlimit := limit_refuses_at_its_depth nestedGrumble .captured
    (grumblingSession.withMaxDepth 2) rfl
  have hanswer := runOn_eq_ok (x := Session.execute nestedGrumble .captured)
    (s := grumblingSession.withMaxDepth 2) (a := { stdout := "\n", stderr := "again\n" })
      (by decide +kernel)
  have hlaunched : (runOn (Session.execute nestedGrumble .captured)
    (grumblingSession.withMaxDepth 2)).2.launches =
      2 + 1 := by decide +kernel
  refine ⟨⟨_, hanswer, ?_⟩, by decide +kernel⟩
  rcases hlimit.2.2 (hlimit.2.1 hshallow) 64 (by decide) 7 grumbling_repeats _ _ hanswer
    with ⟨n, hn, hrun⟩
  have hone : n = 1 := (Nat.add_left_cancel (hlaunched.symm.trans hn)).symm
  subst hone
  exact hrun

end LineShell
