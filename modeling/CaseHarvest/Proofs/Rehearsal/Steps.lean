import CaseHarvest.Proofs.Rehearsal.Numbers
import CaseHarvest.Rehearsal.Launch
/-!
The numbers of processes and of their groups over time. Main statement: what is true of them and stays true
under all that a process does is true at each later time, and whichever process takes a step then, it is
true of that one (`World.Obeys.later`, `World.Obeys.fits_of_mem_actors`).
-/
namespace CaseHarvest.Rehearsal

open World (SameProcesses)

variable {rule : NumberRule} {w : World} {p : Process}

/-! ## Channels -/

namespace Opened

theorem sameProcesses_stream {w w' : World} {s : Stream} {writes : Bool} {c : Channel}
    (h : stream w s writes = .channel w' c) : w.SameProcesses w' := by
  cases h
  exact ⟨rfl, rfl⟩

theorem sameProcesses_copy {w w' : World} {target : String} {c : Channel}
    (h : copy w p target = .channel w' c) : w.SameProcesses w' := by
  unfold copy at h
  split at h
  · cases h
  · split at h
    · cases h
      exact .refl w
    · cases h

theorem sameProcesses_read {w w' : World} {path : String} {c : Channel}
    (h : read w p path = .channel w' c) : w.SameProcesses w' := by
  unfold read at h
  split at h
  · cases h
  · split at h
    · exact sameProcesses_stream h
    · split at h
      · cases h
        exact .refl w
      · cases h
    · cases h
      exact .refl w

theorem sameProcesses_write {w w' : World} {path : String} {keep append : Bool} {c : Channel}
    (h : write w p path keep append = .channel w' c) : w.SameProcesses w' := by
  unfold write at h
  split at h
  · cases h
  · split at h
    · cases h
    · split at h
      · cases h
        exact .refl w
      · cases h
    · cases h
      exact ⟨rfl, rfl⟩
    · cases h
      exact ⟨rfl, rfl⟩

/-- Opening a file may make it, and leaves all processes as they are. -/
theorem sameProcesses_of {w w' : World} {kind : RedirectionKind} {target : String} {c : Channel}
    (h : Opened.of w p kind target = .channel w' c) : w.SameProcesses w' := by
  unfold Opened.of at h
  split at h
  · split at h
    · exact sameProcesses_stream h
    · exact sameProcesses_copy h
  · split at h
    · exact sameProcesses_read h
    · split at h
      · cases h
      · exact sameProcesses_write h
    · exact sameProcesses_write h
    · exact sameProcesses_write h
    · exact sameProcesses_write h
    · exact sameProcesses_copy h
    · exact sameProcesses_stream h

end Opened

/-- Leading channels elsewhere leaves all processes as they are. -/
theorem sameProcesses_redirect {w w' : World} {p : Process}
    {targets : List (Nat × RedirectionKind × String)}
    (h : redirect w p targets = .failed w' ∨ ∃ p', redirect w p targets = .done w' p') :
    w.SameProcesses w' := by
  induction targets generalizing w p with
  | nil =>
    rcases h with h | ⟨p', h⟩
    · cases h
    · cases h
      exact .refl _
  | cons target targets ih =>
    unfold redirect at h
    split at h
    · rename_i w₁ c hopened
      exact (Opened.sameProcesses_of hopened).trans (ih h)
    · exact ih h
    · rcases h with h | ⟨p', h⟩
      · cases h
        exact .refl _
      · cases h
    · rcases h with h | ⟨p', h⟩ <;> cases h

theorem covers_redirected {w w' : World} {p p' : Process}
    {targets : List (Nat × RedirectionKind × String)} (hdone : redirect w p targets = .done w' p')
    (h : rule.Covers w p) : rule.Covers w' p' := by
  induction targets generalizing w p with
  | nil =>
    cases hdone
    exact h
  | cons target targets ih =>
    unfold redirect at hdone
    split at hdone
    · rename_i w₁ c hopened
      exact ih hdone ((Opened.sameProcesses_of hopened).covers h)
    · exact ih hdone h
    · cases hdone
    · cases hdone

namespace Step

open Builtin

theorem start_obeys {words : List String} (h : rule.Covers w p) : (start w p words).Obeys rule :=
  NumberRule.Covers.update h

theorem forOutput_obeys {source : List Char} {s : Statement} {outputs : List String}
    (h : rule.Covers w p) : (forOutput w p source s outputs).Obeys rule := by
  have hstream : rule.Covers (w.addStream (.pipe [])).1 p := h
  have hforked (child : Process) (hchild : child.group = p.group) (todo : List Frame) :
      rule.Covers ((w.addStream (.pipe [])).1.fork child todo).1 p := hstream.fork hchild
  unfold forOutput
  exact NumberRule.Covers.update (hforked { p.setChannel 1 _ with guards := 0 } rfl _)

/-- What is done with the words of a statement keeps the rule if it does so whatever they are. -/
theorem expanding_obeys {α : Type} {s : Statement} {outputs : List String} {e : Setting → Expand α}
    {go : α → Process → World} (h : rule.Covers w p)
    (hgo : ∀ a shell, (go a { p with shell }).Obeys rule) :
    (expanding w p s outputs e go).Obeys rule := by
  unfold expanding
  split
  · exact hgo _ _
  · exact exit_update h
  · exact forOutput_obeys h

theorem call_obeys {body : Statement} {args : List String} (h : rule.Covers w p) :
    (call w p body args).Obeys rule :=
  NumberRule.Covers.update h

theorem spawn_obeys {words : List String} (h : rule.Covers w p) : (spawn w p words).Obeys rule :=
  have hforked : rule.Covers (w.fork p [.start words]).1 p := h.fork rfl
  NumberRule.Covers.update hforked

theorem whereIs_obeys {name : String} (h : rule.Covers w p) : (whereIs w p name).Obeys rule := by
  unfold whereIs
  dsimp only
  split
  · exact settle_obeys h
  · split
    · exact settle_obeys h
    · exact conclude_obeys h

theorem invoke_obeys {functions : Bool} {words : List String} (h : rule.Covers w p) :
    (invoke functions w p words).Obeys rule := by
  fun_induction invoke functions w p words
  case case1 => exact conclude_obeys h
  case case2 => exact whereIs_obeys h
  case case3 => exact whereIs_obeys h
  case case4 ih => exact ih
  case case5 => exact whereIs_obeys h
  case case6 hspecial => exact special_keeps hspecial _ _ _ h
  case case7 => exact call_obeys h
  case case8 hfind _ _ => exact find?_keeps hfind _ _ _ h
  case case9 => exact spawn_obeys h

/-! ## Statements -/

theorem command_obeys {before : Process} {names : List String} {ready : Prepared} {s : Statement}
    {outputs : List String} (h : rule.Covers w p) (hbefore : rule.Covers w before) :
    (command w before p names ready s outputs).Obeys rule := by
  unfold command
  extract_lets name keeps restored channels p
  have h : rule.Covers w p := h
  split
  · exact NumberRule.Covers.update hbefore
  · rename_i w' hfailed
    have hleft : rule.Covers w' p := (sameProcesses_redirect (.inl hfailed)).covers h
    split
    · exact exit_update hleft
    · exact conclude_obeys hleft
  · rename_i w' p' hdone
    have hgoes : rule.Covers w' p' := covers_redirected hdone h
    split
    · exact conclude_obeys hgoes
    · exact start_obeys hgoes
    · apply invoke_obeys
      split <;> exact hgoes

theorem simple_obeys {assignments : List (String × Word)} {words : List Word}
    {redirections : List Redirection} {outputs : List String} (h : rule.Covers w p) :
    (simple w p assignments words redirections outputs).Obeys rule := by
  refine expanding_obeys h fun ready shell => ?_
  have hafter : rule.Covers w { p with shell } := h
  split
  · split
    · exact NumberRule.Covers.update h
    · rename_i w' hfailed
      exact conclude_obeys ((sameProcesses_redirect (.inl hfailed)).covers hafter)
    · rename_i w' p' hdone
      exact conclude_obeys ((sameProcesses_redirect (.inr ⟨p', hdone⟩)).covers hafter)
  · exact command_obeys hafter h

theorem covers_pipeline {input : Option Channel} {stages : List Statement} (h : rule.Covers w p) :
    rule.Covers (pipeline w p input stages).1 p := by
  induction stages generalizing w input with
  | nil => exact h
  | cons s stages ih =>
    have hchild : (input.elim p (p.setChannel 0)).group = p.group := by cases input <;> rfl
    unfold pipeline
    dsimp only
    split
    · exact NumberRule.Covers.fork h hchild
    · have hstream : rule.Covers (w.addStream (.pipe [])).1 p := h
      exact ih (hstream.fork hchild)

theorem statement_obeys {s : Statement} {outputs : List String} (h : rule.Covers w p) :
    (statement w p s outputs).Obeys rule := by
  unfold statement
  split
  · exact simple_obeys h
  · exact NumberRule.Covers.update (covers_pipeline h)
  · exact NumberRule.Covers.update h
  · exact NumberRule.Covers.update h
  · exact NumberRule.Covers.update h
  · exact NumberRule.Covers.update h
  · rename_i body
    have hforked : rule.Covers (w.fork p [.script body, .farewell]).1 p := h.fork rfl
    exact NumberRule.Covers.update hforked
  · exact NumberRule.Covers.update h
  · exact NumberRule.Covers.update h
  · refine expanding_obeys h fun values shell => ?_
    apply NumberRule.Covers.update
    split <;> exact h
  · refine expanding_obeys h fun body shell => ?_
    split
    · exact NumberRule.Covers.update h
    · exact conclude_obeys h
  · exact NumberRule.Covers.update h
  · refine expanding_obeys h fun targets shell => ?_
    have hafter : rule.Covers w { p with shell } := h
    split
    · exact NumberRule.Covers.update h
    · rename_i w' hfailed
      exact conclude_obeys ((sameProcesses_redirect (.inl hfailed)).covers hafter)
    · rename_i w' p' hdone
      have hgoes : rule.Covers w' p' := covers_redirected hdone hafter
      exact NumberRule.Covers.update hgoes

/-! ## Programs -/

theorem startShell_obeys {program : String} {args : List String} (h : rule.Covers w p) :
    (startShell w p program args).Obeys rule := by
  have hended (code : Nat) : (w.update { p.withStatus code with todo := [] }).Obeys rule :=
    NumberRule.Covers.update h
  have hbegins (strict : Bool) (options : List Char) (name : String) (args : List String)
      (text : List Char) : (w.update (shellProcess p strict options name args text)).Obeys rule :=
    NumberRule.Covers.update h
  unfold startShell
  dsimp only
  split
  · exact hended _
  · exact hbegins _ _ _ _ _
  · exact hended _
  · split
    · exact hbegins _ _ _ _ _
    · exact hbegins _ _ _ _ _
    · split
      · exact hended _
      · exact hended _
      · exact hbegins _ _ _ _ _

theorem startWithVariables_obeys {args : List String} (h : rule.Covers w p) :
    (startWithVariables w p args).Obeys rule := by
  fun_induction startWithVariables w p args
  case case1 => exact settle_obeys h
  all_goals first | exact conclude_obeys h | exact start_obeys h | (rename_i ih; exact ih h)

theorem startSleep_obeys {args : List String} (h : rule.Covers w p) :
    (startSleep w p args).Obeys rule := by
  unfold startSleep
  dsimp only
  split
  · exact conclude_obeys h
  · split <;> exact NumberRule.Covers.update h

theorem startProgram_obeys {name : String} {args : List String} (h : rule.Covers w p) :
    (startProgram w p name args).Obeys rule := by
  unfold startProgram
  split
  · exact startShell_obeys h
  · exact startShell_obeys h
  · exact startShell_obeys h
  · exact startWithVariables_obeys h
  · split
    · exact conclude_obeys h
    · exact start_obeys h
  · split
    · exact conclude_obeys h
    · exact start_obeys h.withGroupOfItsOwn
  · exact startSleep_obeys h
  · exact kill_keeps _ _ _ h
  · exact settle_obeys h
  · exact NumberRule.Covers.update h

theorem startWords_obeys {words : List String} (h : rule.Covers w p) :
    (startWords w p words).Obeys rule := by
  have h : rule.Covers w { p with todo := [] } := h
  unfold startWords
  dsimp only
  split
  · exact conclude_obeys h
  · split
    · exact conclude_obeys h
    · split
      · exact startProgram_obeys h
      · exact startShell_obeys h
      · exact conclude_obeys h
      · exact conclude_obeys h

theorem program_obeys {name : String} {args : List String} (h : rule.Covers w p) :
    (program w p name args).Obeys rule := by
  unfold program
  split
  · exact conclude_obeys h
  · dsimp only
    split
    · exact NumberRule.Covers.update h
    · split
      · split
        · exact (SameProcesses.skip _ _ _).obeys (settle_obeys h)
        · exact settle_obeys h
      · exact settle_obeys h

theorem readLine_obeys {raw : Bool} {names : List String} (h : rule.Covers w p) :
    (readLine w p raw names).Obeys rule := by
  unfold readLine
  split
  · exact conclude_obeys h
  · rename_i c _
    have hskipped (count : Nat) : rule.Covers (w.skip c.stream count) p :=
      (SameProcesses.skip w c.stream count).covers h
    exact conclude_obeys (hskipped _)

/-! ## Steps -/

theorem farewell_obeys (h : rule.Covers w p) : (farewell w p).Obeys rule := by
  unfold farewell
  split <;> exact NumberRule.Covers.update h

theorem covers_undo {frame : Frame} (h : rule.Covers w p) : rule.Covers w (p.undo frame) := by
  refine ⟨h.1, ?_⟩
  simpa using h.2

theorem act_obeys {frame : Frame} (h : rule.Covers w p) : (act w p frame).Obeys rule := by
  cases frame with
  | lines tokens =>
    dsimp only [act]
    split
    · exact h.update
    · split
      · exact NumberRule.Covers.update h
      · exact exit_update h
  | script statements =>
    match statements with
    | [] => exact h.update
    | (s, false) :: rest => exact NumberRule.Covers.update h
    | (s, true) :: rest =>
      have hforked : rule.Covers (w.fork (p.setChannel 0 ⟨0, false⟩) [.statement s [], .farewell]).1 p :=
        h.fork rfl
      exact NumberRule.Covers.update hforked
  | statement s outputs =>
    dsimp only [act]
    split
    · exact h.update
    · exact statement_obeys h
  | andThen s =>
    apply NumberRule.Covers.update
    split <;> exact h
  | orElse s =>
    apply NumberRule.Covers.update
    split <;> exact h
  | negate => exact conclude_obeys h
  | branch yes no =>
    dsimp only [act]
    split
    · exact NumberRule.Covers.update h
    · apply NumberRule.Covers.update
      split <;> exact h
  | loop untilSuccess condition body => exact NumberRule.Covers.update h
  | decide untilSuccess condition body last =>
    dsimp only [act]
    split
    · exact conclude_obeys h
    · exact NumberRule.Covers.update h
  | each name values body =>
    cases values with
    | nil => exact h.update
    | cons value values =>
      dsimp only [act]
      split
      · exact exit_update h
      · exact NumberRule.Covers.update h
  | restoreStatus status => exact conclude_obeys h
  | check =>
    dsimp only [act]
    split
    · exact exit_update h
    · exact h.update
  | awaitChild id => exact conclude_obeys h
  | awaitJobs ids => exact conclude_obeys h
  | collect stream child s outputs => exact NumberRule.Covers.update h
  | readLine raw names => exact readLine_obeys h
  | start words => exact startWords_obeys h
  | program name args => exact program_obeys h
  | farewell => exact farewell_obeys h
  | callEnd | sourceEnd | restoreChannels | restoreVars | unguard | sleep | stuck =>
    exact (covers_undo h).update

/-- A process that takes a step keeps the rule. -/
theorem step_obeys (h : rule.Covers w p) : (step w p).Obeys rule := by
  unfold step
  split
  · exact h.1.finish p _ _
  · exact act_obeys h

end Step

/-! ## Over time -/

namespace World

/-- The processes that take the steps of a run, in order. -/
def actors (limit : Option Nat) : (fuel : Nat) → World → List Process
  | 0, _ => []
  | fuel + 1, w =>
    match w.next? limit with
    | none => []
    | some w' => (w.processes.find? (Step.isReady w)).toList ++ actors limit fuel w'

/-- A later world: time has passed, and from outside processes were started, groups killed and files
changed. -/
inductive Later (w : World) : World → Prop
  | now : Later w w
  | passed {w' : World} (time : Nat) : Later w w' → Later w (w'.after time)
  | changed {w' : World} (disk : Disk) : Later w w' → Later w { w' with disk }
  | begun {w' : World} (cwd : Location) (env : Variables) (words : List String) :
      Later w w' → Later w (w'.begin (leader w' cwd env words))
  | killed {w' : World} (group : Nat) : Later w w' → Later w (w'.killGroup group)

theorem Later.trans {w w' w'' : World} (h : w.Later w') (h' : w'.Later w'') : w.Later w'' := by
  induction h' with
  | now => exact h
  | passed time _ ih => exact ih.passed time
  | changed disk _ ih => exact ih.changed disk
  | begun cwd env words _ ih => exact ih.begun cwd env words
  | killed group _ ih => exact ih.killed group

end World

namespace World.Obeys

variable {limit : Option Nat} {w' : World}

theorem covers_of_find (h : w.Obeys rule) (hready : w.processes.find? (Step.isReady w) = some p) :
    rule.Covers w p :=
  ⟨h, h.2 p (List.mem_of_find?_eq_some hready)⟩

theorem yielded (h : w.Obeys rule) (p : Process) : (w.yielded p).Obeys rule := by
  unfold World.yielded
  split
  · rename_i q hq
    refine ⟨h.1, fun r hr => ?_⟩
    rcases List.mem_append.1 hr with hother | hlast
    · exact h.2 r (List.mem_filter.1 hother).1
    · obtain rfl := List.mem_singleton.1 hlast
      exact h.2 r (List.mem_of_find?_eq_some hq)
  · exact h

theorem next (h : w.Obeys rule) (hnext : w.next? limit = some w') : w'.Obeys rule := by
  unfold World.next? at hnext
  split at hnext
  · rename_i p hready
    have hcovers : rule.Covers w p := h.covers_of_find hready
    dsimp only at hnext
    split at hnext
    · cases hnext
      have hspinning : (w.update { p with spinning := true }).Obeys rule :=
        NumberRule.Covers.update hcovers
      exact hspinning
    · cases hnext
      have hstep : ({ Step.step w p with steps := w.steps + 1 } : World).Obeys rule :=
        Step.step_obeys hcovers
      split
      · exact yielded hstep p
      · exact hstep
  · split at hnext
    · cases hnext
    · split at hnext
      · cases hnext
        exact h
      · cases hnext

theorem run {fuel : Nat} (h : w.Obeys rule) : (w.run limit fuel).Obeys rule := by
  induction fuel generalizing w with
  | zero => exact h
  | succ fuel ih =>
    unfold World.run
    split
    · exact h
    · rename_i w' hnext
      exact ih (h.next hnext)

theorem later (h : w.Obeys rule) (hlater : w.Later w') : w'.Obeys rule := by
  induction hlater with
  | now => exact h
  | passed time _ ih => exact ih.run
  | changed disk _ ih => exact ih
  | begun cwd env words _ ih =>
    refine ⟨rule.counts_succ ih.1, fun q hq => ?_⟩
    rcases List.mem_append.1 hq with hold | hnew
    · exact rule.fits_succ (ih.2 q hold)
    · obtain rfl := List.mem_singleton.1 hnew
      exact rule.fits_leader ih.1
  | killed group _ ih => exact ⟨ih.1, fun q hq => ih.2 q (List.mem_filter.1 hq).1⟩

/-- Whichever process takes a step, the rule is true of it. -/
theorem fits_of_mem_actors {fuel : Nat} (h : w.Obeys rule) (hp : p ∈ w.actors limit fuel) :
    ∃ next, rule.fits next p.id p.group := by
  induction fuel generalizing w with
  | zero => cases hp
  | succ fuel ih =>
    unfold World.actors at hp
    split at hp
    · cases hp
    · rename_i w' hnext
      rcases List.mem_append.1 hp with hnow | hthen
      · have hready := Option.mem_toList.1 hnow
        exact ⟨w.nextId, (h.covers_of_find hready).2⟩
      · exact ih (h.next hnext) hthen

end World.Obeys

end CaseHarvest.Rehearsal
