import CaseHarvest.Proofs.Rehearsal.Steps
import CaseHarvest.Proofs.Session.Reports
/-!
Whether anything that was started for a unit outlives its turn. Main statement: whatever processes an engine
run has formed in its group, none of them is left behind a turn that timed out or failed, and none ever takes
a step again; behind a completed turn nobody has been killed (`group_over_unless_completed`). What an engine
has left running then writes into its output directory when the records have been collected
(`group_outlives_completed_turn`).
-/
namespace CaseHarvest.Rehearsal

open Session (attempt runUnit runUnits reportOf)

/-! ## Numbers in use -/

namespace NumberRule

/-- All numbers in use are below the next one. -/
def inUse : NumberRule where
  counts _ := True
  fits next id group := id < next ∧ group < next
  counts_succ h := h
  fits_succ h := ⟨Nat.lt_succ_of_lt h.1, Nat.lt_succ_of_lt h.2⟩
  fits_alone h := ⟨h.1, h.1⟩
  fits_forked _ h := ⟨Nat.lt_succ_self _, Nat.lt_succ_of_lt h.2⟩
  fits_leader _ := ⟨Nat.lt_succ_self _, Nat.lt_succ_self _⟩

/-- The process that a group is named after is in the group if it lives. -/
def ledBy (leader : Nat) : NumberRule where
  counts next := leader < next
  fits _ id group := id = leader → group = leader
  counts_succ h := Nat.lt_succ_of_lt h
  fits_succ h := h
  fits_alone _ h := h
  fits_forked hnext _ h := absurd h (Nat.ne_of_gt hnext)
  fits_leader hnext h := absurd h (Nat.ne_of_gt hnext)

/-- Nothing of a group lives, nor the process that it is named after. -/
def noneOf (leader : Nat) : NumberRule where
  counts next := leader < next
  fits _ id group := id ≠ leader ∧ group ≠ leader
  counts_succ h := Nat.lt_succ_of_lt h
  fits_succ h := h
  fits_alone h := ⟨h.1, h.1⟩
  fits_forked hnext h := ⟨Nat.ne_of_gt hnext, h.2⟩
  fits_leader hnext := ⟨Nat.ne_of_gt hnext, Nat.ne_of_gt hnext⟩

end NumberRule

/-- Nothing of a group lives, and whoever takes a step from now on is not of the group. -/
structure World.Over (w : World) (group : Nat) : Prop where
  none : w.Obeys (.noneOf group)
  quiet : ∀ limit fuel, ∀ p ∈ w.actors limit fuel, p.group ≠ group

/-- A world with a process that has been started from outside and leads a group of its own. -/
def World.Starts (w started : World) : Prop :=
  ∃ disk cwd env words,
    started = World.begin { w with disk } (leader { w with disk } cwd env words)

section Groups

variable {w w' started : World}

theorem World.Starts.later (h : w.Starts started) : w.Later started := by
  obtain ⟨disk, cwd, env, words, rfl⟩ := h
  exact (Later.now.changed disk).begun cwd env words

theorem World.Starts.led (h : w.Starts started) (hw : w.Obeys .inUse) :
    started.Obeys (.ledBy w.nextId) := by
  obtain ⟨disk, cwd, env, words, rfl⟩ := h
  refine ⟨Nat.lt_succ_self w.nextId, fun p hp => ?_⟩
  rcases List.mem_append.1 hp with hold | hnew
  · -- What ran before has another number.
    intro hid
    exact absurd hid (Nat.ne_of_lt (hw.2 p hold).1)
  · intro _
    rw [List.mem_singleton.1 hnew]
    rfl

/-- Killing a group leaves nothing of it. -/
theorem World.Obeys.killGroup {group : Nat} (h : w.Obeys (.ledBy group)) :
    (w.killGroup group).Obeys (.noneOf group) := by
  refine ⟨h.1, fun p hp => ?_⟩
  obtain ⟨hmem, hother⟩ := List.mem_filter.1 hp
  have hgroup : p.group ≠ group := by simpa using hother
  exact ⟨fun hid => hgroup (h.2 p hmem hid), hgroup⟩

theorem World.Obeys.over {group : Nat} (h : w.Obeys (.noneOf group)) : w.Over group where
  none := h
  quiet _ _ p hp := by
    obtain ⟨_, hfits⟩ := h.fits_of_mem_actors hp
    exact hfits.2

end Groups

/-! ## Turns -/

/-- What a turn that ends with a status leaves running. -/
inductive TurnLeaves (w : World) : UnitStatus → World → Prop
  | unstarted (fault : Fault) : TurnLeaves w (.failed fault) w
  | ended {started : World} (exitCode : Option Nat) (time : Nat) (h : w.Starts started) :
      TurnLeaves w (.completed exitCode) (started.after time)
  | killed {started : World} {status : UnitStatus} (time : Nat) (h : w.Starts started)
      (hstatus : ∀ exitCode, status ≠ .completed exitCode) :
      TurnLeaves w status ((started.after time).killGroup w.nextId)

section Turn

variable {w w' : World} {status : UnitStatus} {cwd : Location} {environment : List (String × String)}
  {failing : World → Command → Option (Nat × Fault)}

theorem TurnLeaves.later (h : TurnLeaves w status w') : w.Later w' := by
  cases h with
  | unstarted fault => exact .now
  | ended exitCode time h => exact h.later.passed time
  | killed time h _ => exact (h.later.passed time).killed w.nextId

theorem TurnLeaves.over (h : TurnLeaves w status w') (hw : w.Obeys .inUse)
    (hstatus : ∀ exitCode, status ≠ .completed exitCode) {later : World} (hlater : w'.Later later) :
    w' = w ∨ later.Over w.nextId := by
  cases h with
  | unstarted fault => exact .inl rfl
  | ended exitCode => exact absurd rfl (hstatus exitCode)
  | killed time h =>
    have hled : (World.after _ time).Obeys (.ledBy w.nextId) :=
      (h.led hw).later (World.Later.now.passed time)
    exact .inr (hled.killGroup.later hlater).over

/-- Starting a command adds the leader of a group to the world. -/
theorem launch_starts {env : Variables} {files : FileTree} {command : Command} {activity : Activity World}
    (h : launch cwd env failing w files command = .ok activity) :
    ∃ started, w.Starts started ∧ activity.running = started.after
      ∧ activity.spared = fun time => (started.after time).killGroup w.nextId := by
  unfold launch at h
  split at h
  · cases h
  · obtain ⟨path, -, h⟩ := bind_eq_ok_iff.1 h
    obtain ⟨image, -, h⟩ := bind_eq_ok_iff.1 h
    cases h
    exact ⟨_, ⟨_, _, _, _, rfl⟩, rfl, rfl⟩

/-- Only a process that has ended in time is not killed. -/
theorem await_cases {Running : Type} (a : Activity Running) (limit : Duration) :
    (∃ status, (a.await limit).status = .ok (some status)
        ∧ (a.await limit).running = a.running (a.await limit).time)
      ∨ (∀ status, (a.await limit).status ≠ .ok (some status))
        ∧ (a.await limit).running = a.spared (a.await limit).time := by
  unfold Activity.await
  split
  · split
    · exact .inr ⟨nofun, rfl⟩
    · exact .inr ⟨nofun, rfl⟩
  · split
    · exact .inl ⟨_, rfl, rfl⟩
    · exact .inr ⟨nofun, rfl⟩
  · exact .inr ⟨nofun, rfl⟩

theorem turnLeaves_attempt (limit : Duration) (files : FileTree) (dir : String) (command : Command) :
    TurnLeaves w (attempt (machine cwd environment failing) limit w files dir command).status
      (attempt (machine cwd environment failing) limit w files dir command).running := by
  unfold attempt
  split
  · exact .unstarted _
  · split
    · exact .unstarted _
    · rename_i cleared _ _ activity hlaunch
      obtain ⟨started, hstarts, hrunning, hspared⟩ := launch_starts hlaunch
      dsimp only
      rcases await_cases activity limit with ⟨status, hstatus, hleft⟩ | ⟨hstatus, hleft⟩
      · rw [hstatus, hleft, hrunning]
        exact .ended _ _ hstarts
      · rw [hleft, hspared]
        refine .killed _ hstarts fun exitCode => ?_
        split
        · rename_i status hended
          exact absurd hended (hstatus status)
        · intro h
          cases h
        · intro h
          cases h

/-- What a unit's turn in a session comes to for the processes of the machine. -/
structure TurnOver (w : World) (status : UnitStatus) (w' : World) : Prop where
  /-- If the turn was not completed, nothing was started for it, or that is over at any later time. -/
  killed : (∀ exitCode, status ≠ .completed exitCode) →
    w' = w ∨ ∀ later, w'.Later later → later.Over w.nextId
  /-- If it was, what was started for it goes on as if nobody had waited for it. -/
  left : ∀ exitCode, status = .completed exitCode →
    ∃ started time, w.Starts started ∧ w' = started.after time
  inUse : w'.Obeys .inUse

theorem TurnLeaves.turnOver (h : TurnLeaves w status w') (hw : w.Obeys .inUse) :
    TurnOver w status w' where
  killed := by
    intro hstatus
    by_cases hsame : w' = w
    · exact .inl hsame
    · exact .inr fun later hlater => (h.over hw hstatus hlater).resolve_left hsame
  left := by
    intro exitCode hstatus
    cases h with
    | unstarted fault => cases hstatus
    | ended _ time h => exact ⟨_, time, h, rfl⟩
    | killed time h hnot => exact absurd hstatus (hnot exitCode)
  inUse := hw.later h.later

end Turn

section Session

variable {cwd : Location} {environment : List (String × String)}
  {failing : World → Command → Option (Nat × Fault)}
variable (engine : Engine) (settings : Settings) (executable : String)

theorem later_runUnits (s : Session (machine cwd environment failing).Running) (ordinal : Nat)
    (units : List String) :
    World.Later s.running
      (runUnits engine (machine cwd environment failing) settings executable s ordinal units).running := by
  induction units generalizing s ordinal with
  | nil => exact .now
  | cons unit units ih =>
    rw [Session.runUnits_cons]
    refine World.Later.trans ?_ (ih _ _)
    rw [Session.runUnit_running]
    exact (turnLeaves_attempt _ _ _ _).later

/-- A group that was started for a unit outlives its turn only if the turn was completed. -/
theorem group_over_unless_completed {s : Session (machine cwd environment failing).Running}
    (hs : World.Obeys s.running .inUse) (unit : String) (ordinal : Nat) :
    let s' := runUnit engine (machine cwd environment failing) settings executable s unit ordinal
    ∃ report, s'.units = s.units ++ [report]
      ∧ TurnOver s.running report.status s'.running
      ∧ ∀ units, World.Later s'.running (runUnits engine (machine cwd environment failing) settings
          executable s' (ordinal + 1) units).running := by
  intro s'
  refine ⟨_, Session.runUnit_units s unit ordinal, TurnLeaves.turnOver ?_ hs, fun units => ?_⟩
  · rw [Session.runUnit_running]
    exact turnLeaves_attempt _ _ _ _
  · exact later_runUnits engine settings executable s' (ordinal + 1) units

end Session

section Workshop

/-- A shell, two programs, and a script as an engine. -/
def workshop (script : String) : FileTree :=
  let program : Entry := .file Programs.content true
  ((((FileTree.empty.put ["bin"] .directory).put ["bin", "sh"] program).put ["bin", "sleep"]
    program).put ["bin", "mkdir"] program).put ["engine"] (.file (Bytes.ofString script) true)

/-- A session in which nothing has been run. -/
def freshSession (script : String) : Session World := ⟨workshop script, .idle, [], [], []⟩

/-- The session behind the turn of one unit. -/
def oneTurn (script : String) : Session World :=
  runUnit (Engine.klee "/engine" []) (machine [] []) {} "/engine" (freshSession script) "a.ll" 0

/-- An engine that waits for its helper for longer than anybody waits for the engine. -/
def patientScript : String := "#!/bin/sh\nsleep 99999 &\nwait\n"

/-- Of an engine that is killed with its helper nothing is left. -/
theorem group_over_unless_completed_patient :
    World.Obeys World.idle .inUse ∧ (oneTurn patientScript).units.map (·.status) = [.timedOut]
      ∧ ∀ later, World.Later (oneTurn patientScript).running later → later.Over 2 := by
  have hidle : World.Obeys World.idle .inUse := ⟨trivial, nofun⟩
  have hstatus : (oneTurn patientScript).units.map (·.status) = [.timedOut] := by decide +kernel
  have hstarted : (oneTurn patientScript).running.nextId ≠ World.idle.nextId := by decide +kernel
  refine ⟨hidle, hstatus, ?_⟩
  obtain ⟨report, hunits, hturn, -⟩ := @group_over_unless_completed [] [] (fun _ _ => none)
    (Engine.klee "/engine" []) {} "/engine" (freshSession patientScript) hidle "a.ll" 0
  have hreport : report.status = .timedOut := by
    have hunits : (oneTurn patientScript).units = [report] := hunits
    rw [hunits] at hstatus
    simpa using hstatus
  rcases hturn.killed (by rw [hreport]; nofun) with hsame | hover
  · exact absurd (congrArg World.nextId hsame) hstarted
  · exact hover

/-- An engine that leaves its helper behind. -/
def hastyScript : String :=
  "#!/bin/sh\nmkdir out\n(sleep 1; mkdir -p out; echo > out/late.ktest) &\n"

/-- What that engine leaves. -/
def hastyTurn : Session.Attempt World :=
  attempt (machine [] []) (.ofNanos 30000000000) .idle (workshop hastyScript) "out" ⟨"/engine", []⟩

/-- The machine once the output directory has been removed behind that engine. -/
def cleanedUp : World :=
  { hastyTurn.running with disk := ⟨(Session.removeAll [] hastyTurn.files ["out"]).1⟩ }

/-- The turn is completed, its records are collected, its directory is removed, and then a process of its
group makes the directory again and writes into it. -/
theorem group_outlives_completed_turn :
    hastyTurn.status = .completed (some 0)
      ∧ (Session.recordFiles hastyTurn.files [] "ktest" "out").toOption = some []
      ∧ (∃ p ∈ hastyTurn.running.processes, p.group = 2)
      ∧ cleanedUp.disk.lookup ["out"] = none
      ∧ (cleanedUp.after 2000000000).disk.lookup ["out", "late.ktest"] = some (.file [10] false) := by
  decide +kernel

end Workshop

end CaseHarvest.Rehearsal
