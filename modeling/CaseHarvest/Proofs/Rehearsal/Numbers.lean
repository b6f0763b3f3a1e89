import CaseHarvest.Rehearsal.Step
/-!
Which numbers processes and their groups have. Whatever a process does, it only ever goes on under its
number, in its group or alone in a group of its own, and starts processes that have new numbers and are in
its group. Main statement: what can be said of all numbers and stays true under that is true at each time
that a world comes to (`Obeys.run`).
-/
namespace CaseHarvest.Rehearsal

/-- Something that can be said of the numbers of all processes and of their groups, given the number that
the next process will have, and that stays true whatever processes do. -/
structure NumberRule where
  counts : (next : Nat) → Prop
  fits : (next id group : Nat) → Prop
  counts_succ : ∀ {n}, counts n → counts (n + 1)
  fits_succ : ∀ {n id group}, fits n id group → fits (n + 1) id group
  /-- A process leaves for a group of its own. -/
  fits_alone : ∀ {n id group}, fits n id group → fits n id id
  /-- A process starts another one. -/
  fits_forked : ∀ {n id group}, counts n → fits n id group → fits (n + 1) n group
  /-- A process is started from outside. -/
  fits_leader : ∀ {n}, counts n → fits (n + 1) n n

variable {rule : NumberRule}

def World.Obeys (w : World) (rule : NumberRule) : Prop :=
  rule.counts w.nextId ∧ ∀ p ∈ w.processes, rule.fits w.nextId p.id p.group

/-- The rule is true in a world and for a process in it, which may have changed but for its numbers. -/
def NumberRule.Covers (rule : NumberRule) (w : World) (p : Process) : Prop :=
  w.Obeys rule ∧ rule.fits w.nextId p.id p.group

/-- What a process does keeps the rule. -/
def Act.Keeps (act : Act) (rule : NumberRule) : Prop :=
  ∀ w p args, rule.Covers w p → (act w p args).Obeys rule

namespace Process

variable {p : Process}

@[simp] theorem undo_id (frame : Frame) : (p.undo frame).id = p.id := by cases frame <;> rfl

@[simp] theorem undo_group (frame : Frame) : (p.undo frame).group = p.group := by cases frame <;> rfl

@[simp] theorem unwind_id (stop : Frame → Bool) (todo : List Frame) :
    (unwind stop p todo).id = p.id := by
  induction todo generalizing p with
  | nil => rfl
  | cons frame rest ih =>
    unfold unwind
    split
    · rfl
    · rw [ih, undo_id]

@[simp] theorem unwind_group (stop : Frame → Bool) (todo : List Frame) :
    (unwind stop p todo).group = p.group := by
  induction todo generalizing p with
  | nil => rfl
  | cons frame rest ih =>
    unfold unwind
    split
    · rfl
    · rw [ih, undo_group]

end Process

/-- The world has the same processes as another one, and counts on from the same number. -/
def World.SameProcesses (w w' : World) : Prop := w'.processes = w.processes ∧ w'.nextId = w.nextId

namespace World.SameProcesses

variable {w w' : World}

theorem obeys (h : w.SameProcesses w') (hw : w.Obeys rule) : w'.Obeys rule := by
  unfold World.Obeys
  rw [h.1, h.2]
  exact hw

theorem covers {p : Process} (h : w.SameProcesses w') (hp : rule.Covers w p) : rule.Covers w' p := by
  refine ⟨h.obeys hp.1, ?_⟩
  rw [h.2]
  exact hp.2

theorem refl (w : World) : w.SameProcesses w := ⟨rfl, rfl⟩

theorem trans {w'' : World} (h : w.SameProcesses w') (h' : w'.SameProcesses w'') :
    w.SameProcesses w'' :=
  ⟨h'.1.trans h.1, h'.2.trans h.2⟩

theorem skip (w : World) (stream count : Nat) : w.SameProcesses (w.skip stream count) := by
  unfold World.skip
  split <;> exact ⟨rfl, rfl⟩

theorem write (w : World) (stream : Nat) (bytes : Bytes) : w.SameProcesses (w.write stream bytes) := by
  unfold World.write
  split
  · exact ⟨rfl, rfl⟩
  · exact ⟨rfl, rfl⟩
  · exact ⟨rfl, rfl⟩
  · dsimp only
    split <;> exact ⟨rfl, rfl⟩

theorem print (p : Process) {channel : Nat} {bytes : Bytes}
    (h : w.print? p channel bytes = some w') : w.SameProcesses w' := by
  unfold World.print? at h
  split at h
  · split at h
    · cases h
      exact write _ _ _
    · cases h
  · cases h

end World.SameProcesses

/-! ## Changing the processes of a world -/

namespace NumberRule.Covers

variable {w : World} {p : Process}

theorem withGroupOfItsOwn (h : rule.Covers w p) : rule.Covers w { p with group := p.id } :=
  ⟨h.1, rule.fits_alone h.2⟩

theorem update (h : rule.Covers w p) : (w.update p).Obeys rule := by
  refine ⟨h.1.1, fun q hq => ?_⟩
  obtain ⟨q', hq', rfl⟩ := List.mem_map.1 hq
  split
  · exact h.2
  · exact h.1.2 q' hq'

/-- A process starts one like itself in its group. -/
theorem fork {q : Process} {todo : List Frame} (h : rule.Covers w p) (hq : q.group = p.group) :
    rule.Covers (w.fork q todo).1 p := by
  refine ⟨⟨rule.counts_succ h.1.1, fun r hr => ?_⟩, rule.fits_succ h.2⟩
  rcases List.mem_append.1 hr with hold | hnew
  · exact rule.fits_succ (h.1.2 r hold)
  · obtain rfl := List.mem_singleton.1 hnew
    have hgroup : rule.fits (w.nextId + 1) w.nextId p.group := rule.fits_forked h.1.1 h.2
    rwa [← hq] at hgroup

end NumberRule.Covers

theorem World.Obeys.finish {w : World} (h : w.Obeys rule) (p : Process) (status : ExitStatus)
    (code : Nat) : (w.finish p status code).Obeys rule :=
  ⟨h.1, fun q hq => h.2 q ((List.mem_filter.1 hq).1)⟩

/-! ## Commands of the shell -/

namespace Builtin

variable {w : World} {p : Process}

theorem conclude_obeys {status : Nat} (h : rule.Covers w p) : (conclude w p status).Obeys rule :=
  NumberRule.Covers.update h

theorem covers_exit (h : rule.Covers w p) (code : Nat) : rule.Covers w (p.exit code) := by
  unfold Process.exit Process.withStatus
  refine ⟨h.1, ?_⟩
  simpa using h.2

theorem exit_update {code : Nat} (h : rule.Covers w p) : (w.update (p.exit code)).Obeys rule :=
  (covers_exit h code).update

theorem mistake_obeys {status : Nat} (h : rule.Covers w p) : (mistake w p status).Obeys rule := by
  unfold mistake
  split
  · exact exit_update h
  · exact conclude_obeys h

theorem exit_keeps : Act.Keeps exit rule := by
  intro w p args h
  unfold exit
  split
  · exact exit_update h
  · split
    · split <;> exact exit_update h
    · exact exit_update h

theorem comeBack_keeps : Act.Keeps comeBack rule := by
  intro w p args h
  unfold comeBack
  dsimp only
  split
  · exact exit_update h
  · split
    · refine NumberRule.Covers.update ⟨h.1, ?_⟩
      simpa [Process.withStatus] using h.2
    · split
      · exact exit_update h
      · exact conclude_obeys h

theorem leaveLoops_numbers (goOn : Bool) (p : Process) (count : Nat) (todo : List Frame) :
    (leaveLoops goOn p count todo).id = p.id ∧ (leaveLoops goOn p count todo).group = p.group := by
  fun_induction leaveLoops goOn p count todo <;> simp_all

theorem covers_leaveLoops (h : rule.Covers w p) (goOn : Bool) (count : Nat) :
    rule.Covers w (leaveLoops goOn p count p.todo) := by
  obtain ⟨hid, hgroup⟩ := leaveLoops_numbers goOn p count p.todo
  refine ⟨h.1, ?_⟩
  rw [hid, hgroup]
  exact h.2

theorem leave_keeps (goOn : Bool) : Act.Keeps (leave goOn) rule := by
  intro w p args h
  dsimp only [leave]
  split
  · exact mistake_obeys h
  · exact mistake_obeys h
  · split
    · exact conclude_obeys h
    · exact conclude_obeys (covers_leaveLoops h goOn _)

/-! ### Variables, arguments and options -/

theorem set_keeps : Act.Keeps set rule := by
  intro w p args h
  dsimp only [set]
  split
  · exact mistake_obeys h
  · exact NumberRule.Covers.update h

theorem shift_keeps : Act.Keeps shift rule := by
  intro w p args h
  dsimp only [shift]
  split
  · exact mistake_obeys h
  · split
    · exact mistake_obeys h
    · exact NumberRule.Covers.update h

theorem declare_keeps (mark : Shell → String → Shell) : Act.Keeps (declare mark) rule := by
  intro w p args h
  dsimp only [declare]
  split
  · exact mistake_obeys h
  · exact NumberRule.Covers.update h

theorem unset_keeps : Act.Keeps unset rule := by
  intro w p args h
  dsimp only [unset]
  split
  · exact mistake_obeys h
  · exact NumberRule.Covers.update h

theorem own_keeps : Act.Keeps own rule := by
  intro w p args h
  dsimp only [own]
  split
  · exact mistake_obeys h
  · exact NumberRule.Covers.update h

/-! ### Scripts in words and files -/

theorem eval_keeps : Act.Keeps eval rule := by
  intro w p args h
  exact NumberRule.Covers.update h

theorem source_keeps : Act.Keeps source rule := by
  intro w p args h
  cases args with
  | nil => exact mistake_obeys h
  | cons name args =>
    dsimp only [source]
    generalize List.findSome? (script? w.disk p.cwd) _ = text?
    cases text? with
    | none => exact mistake_obeys h
    | some text => exact NumberRule.Covers.update h

/-! ### Signals and jobs -/

theorem trap_keeps : Act.Keeps trap rule := by
  intro w p args h
  dsimp only [trap]
  split
  · exact conclude_obeys h
  · -- The script may have been left out, and then all arguments are signals.
    split <;> split
    · exact conclude_obeys h
    · exact NumberRule.Covers.update h
    · exact conclude_obeys h
    · exact NumberRule.Covers.update h

theorem covers_interrupt (h : rule.Covers w p) (signal : Nat) (action : String) :
    rule.Covers w (interrupt p signal action) := by
  unfold interrupt
  split <;> exact h

theorem deliver_obeys (h : rule.Covers w p) (signal : Nat) : (deliver signal w p).Obeys rule := by
  unfold deliver
  split
  · exact h.1.finish p _ _
  · split
    · split
      · exact h.1
      · exact (covers_interrupt h signal _).update
    · split
      · exact h.1
      · exact h.1.finish p _ _

theorem covers_of_mem {q : Process} (h : w.Obeys rule) (hq : q ∈ w.processes) : rule.Covers w q :=
  ⟨h, h.2 q hq⟩

/-- Signals reach one process after the other, each as it is then. -/
theorem deliverAll_obeys (h : w.Obeys rule) (signal : Nat) (targets : List Process) :
    (targets.foldl (fun w q =>
      match w.processes.find? (·.id = q.id) with
      | some q => deliver signal w q
      | none => w) w).Obeys rule := by
  induction targets generalizing w with
  | nil => exact h
  | cons q targets ih =>
    rw [List.foldl_cons]
    apply ih
    split
    · rename_i found hfound
      exact deliver_obeys (covers_of_mem h (List.mem_of_find?_eq_some hfound)) signal
    · exact h

theorem kill_keeps : Act.Keeps kill rule := by
  intro w p args h
  dsimp only [kill]
  split
  · exact conclude_obeys h
  · split
    · exact conclude_obeys h
    · exact deliverAll_obeys (conclude_obeys h) _ _

theorem wait_keeps : Act.Keeps wait rule := by
  intro w p args h
  unfold wait
  split <;> exact NumberRule.Covers.update h

/-! ### The rest -/

theorem settle_obeys {e : Effect} (h : rule.Covers w p) : (settle w p e).Obeys rule := by
  have hdisk : rule.Covers { w with disk := e.disk } p := h
  unfold settle
  dsimp only
  split
  · exact conclude_obeys hdisk
  · split
    · rename_i w' hprint
      exact conclude_obeys ((World.SameProcesses.print p hprint).covers hdisk)
    · exact conclude_obeys hdisk

theorem cd_keeps : Act.Keeps cd rule := by
  intro w p args h
  dsimp only [cd]
  split
  · split
    · split
      · exact settle_obeys h
      · exact conclude_obeys h
    · exact conclude_obeys h
  · exact conclude_obeys h

theorem read_keeps : Act.Keeps read rule := by
  intro w p args h
  dsimp only [read]
  split
  · exact conclude_obeys h
  · exact NumberRule.Covers.update h

theorem small_keeps (f : Surroundings → List String → Effect) : Act.Keeps (small f) rule :=
  fun _ _ _ h => settle_obeys h

/-! ### What the shell does itself -/

theorem conclude_keeps (status : Nat) : Act.Keeps (fun w p _ => conclude w p status) rule :=
  fun _ _ _ h => conclude_obeys h

theorem mem_of_lookup {acts : List (String × Act)} {name : String} {act : Act}
    (h : acts.lookup name = some act) : (name, act) ∈ acts := by
  obtain ⟨before, after, rfl, -⟩ := List.lookup_eq_some_iff.1 h
  exact List.mem_append_right _ List.mem_cons_self

theorem special_keeps {name : String} {act : Act} (h : special.lookup name = some act) :
    act.Keeps rule := by
  have hall : ∀ entry ∈ special, Act.Keeps entry.2 rule := by
    unfold special
    simp only [List.forall_mem_cons, List.not_mem_nil, false_implies, implies_true, and_true]
    exact ⟨conclude_keeps 0, leave_keeps false, leave_keeps true, exit_keeps, comeBack_keeps, set_keeps,
      shift_keeps, declare_keeps _, declare_keeps _, unset_keeps, eval_keeps, source_keeps, trap_keeps,
      conclude_keeps 0⟩
  exact hall _ (mem_of_lookup h)

theorem ordinary_keeps {name : String} {act : Act} (h : ordinary.lookup name = some act) :
    act.Keeps rule := by
  have hall : ∀ entry ∈ ordinary, Act.Keeps entry.2 rule := by
    rw [ordinary, List.forall_mem_append]
    constructor
    · simp only [List.forall_mem_cons, List.not_mem_nil, false_implies, implies_true, and_true]
      exact ⟨conclude_keeps 0, conclude_keeps 1, small_keeps _, small_keeps _, small_keeps _,
        small_keeps _, small_keeps _, cd_keeps, read_keeps, kill_keeps, wait_keeps, own_keeps⟩
    · intro entry hentry
      obtain ⟨name, -, rfl⟩ := List.mem_map.1 hentry
      exact conclude_keeps 0
  exact hall _ (mem_of_lookup h)

theorem further_keeps {name : String} {act : Act} (h : further.lookup name = some act) :
    act.Keeps rule := by
  have hall : ∀ entry ∈ further, Act.Keeps entry.2 rule := by
    unfold further
    simp only [List.forall_mem_cons, List.not_mem_nil, false_implies, implies_true, and_true]
    exact ⟨source_keeps, declare_keeps _, declare_keeps _, conclude_keeps 0⟩
  exact hall _ (mem_of_lookup h)

theorem find?_keeps {strict : Bool} {name : String} {act : Act} (h : find? strict name = some act) :
    act.Keeps rule := by
  unfold find? at h
  rcases Option.or_eq_some_iff.1 h with hspecial | ⟨-, h⟩
  · exact special_keeps hspecial
  rcases Option.or_eq_some_iff.1 h with hordinary | ⟨-, hfurther⟩
  · exact ordinary_keeps hordinary
  · split at hfurther
    · cases hfurther
    · exact further_keeps hfurther

end Builtin

end CaseHarvest.Rehearsal
