import Mathlib.Data.Finset.Card
import MismatchReport.Proofs.Expansion

/-!
# Histories of a guard

Keys are entered, left and marked in any order, as long as only keys under way are left.  Which
keys are under way and which are marked shows in the calls and their answers alone, and at every
time the guard agrees with that.
-/

namespace MismatchReport.Guard

inductive Call (κ : Type) where
  | enter (key : κ)
  | leave (key : κ)
  | mark (key : κ)
  | clearMarks
  deriving DecidableEq, Repr

inductive Event (κ : Type) where
  | enter (key : κ) (answer : Expansion)
  | leave (key : κ)
  | mark (key : κ)
  | clearMarks
  deriving DecidableEq, Repr

variable {κ : Type} {guard : Guard κ} {events : List (Event κ)}

/-- The first event happened, and the second has not happened since. -/
def HappenedSince (event ending : Event κ) (events : List (Event κ)) : Prop :=
  ∃ before after, events = before ++ event :: after ∧ ending ∉ after

def IsUnderWay (events : List (Event κ)) (key : κ) : Prop :=
  HappenedSince (.enter key .entered) (.leave key) events

def IsMarked (events : List (Event κ)) (key : κ) : Prop :=
  HappenedSince (.mark key) .clearMarks events

theorem not_happenedSince_nil (event ending : Event κ) : ¬ HappenedSince event ending [] := by
  rintro ⟨before, after, heq, -⟩
  simp at heq

theorem happenedSince_concat {event ending last : Event κ} :
    HappenedSince event ending (events ++ [last]) ↔
      last = event ∨ HappenedSince event ending events ∧ last ≠ ending := by
  constructor
  · rintro ⟨before, after, heq, hafter⟩
    rcases List.eq_nil_or_concat after with rfl | ⟨after, next, rfl⟩
    · exact .inl (List.head_eq_of_cons_eq (List.append_inj_right' heq rfl))
    · rw [List.concat_eq_append] at heq hafter
      rw [← List.cons_append, ← List.append_assoc] at heq
      obtain ⟨rfl, hlast⟩ := List.append_inj' heq rfl
      obtain rfl := List.head_eq_of_cons_eq hlast
      rw [List.mem_append, not_or, List.mem_singleton] at hafter
      exact .inr ⟨⟨before, after, rfl, hafter.1⟩, Ne.symm hafter.2⟩
  · rintro (rfl | ⟨⟨before, after, rfl, hafter⟩, hlast⟩)
    · exact ⟨events, [], rfl, List.not_mem_nil⟩
    · refine ⟨before, after ++ [last], by simp, ?_⟩
      simp [hafter, Ne.symm hlast]

/-- The guard holds the keys that are under way and those that are marked by its history, and its
depth counts the first. -/
structure Records (guard : Guard κ) (events : List (Event κ)) : Prop where
  mem_visiting_iff : ∀ key, key ∈ guard.visiting ↔ IsUnderWay events key
  mem_marked_iff : ∀ key, key ∈ guard.marked ↔ IsMarked events key
  nodup_visiting : guard.visiting.Nodup
  depth_eq : guard.depth = guard.visiting.length
  depth_le : guard.depth ≤ guard.maxDepth

theorem records_ofMaxDepth (maxDepth : Nat) : (ofMaxDepth maxDepth : Guard κ).Records [] where
  mem_visiting_iff key := by simp [ofMaxDepth, IsUnderWay, not_happenedSince_nil]
  mem_marked_iff key := by simp [ofMaxDepth, IsMarked, not_happenedSince_nil]
  nodup_visiting := List.nodup_nil
  depth_eq := rfl
  depth_le := Nat.zero_le _

namespace Records

theorem refuse (hrecords : guard.Records events) (key : κ) {answer : Expansion}
    (hanswer : answer ≠ .entered) : guard.Records (events ++ [.enter key answer]) :=
  { hrecords with
    mem_visiting_iff := fun other => by
      simp [IsUnderWay, happenedSince_concat, hanswer, hrecords.mem_visiting_iff]
    mem_marked_iff := fun other => by
      simp [IsMarked, happenedSince_concat, hrecords.mem_marked_iff] }

theorem mark (hrecords : guard.Records events) (key : κ) :
    (Guard.mark key guard).2.Records (events ++ [.mark key]) :=
  { hrecords with
    mem_visiting_iff := fun other => by
      simp [Guard.mark, IsUnderWay, happenedSince_concat, hrecords.mem_visiting_iff]
    mem_marked_iff := fun other => by
      simp [Guard.mark, IsMarked, happenedSince_concat, hrecords.mem_marked_iff, eq_comm] }

theorem clearMarks (hrecords : guard.Records events) :
    (Guard.clearMarks guard).2.Records (events ++ [.clearMarks]) :=
  { hrecords with
    mem_visiting_iff := fun other => by
      simp [Guard.clearMarks, IsUnderWay, happenedSince_concat, hrecords.mem_visiting_iff]
    mem_marked_iff := fun other => by simp [Guard.clearMarks, IsMarked, happenedSince_concat] }

variable [DecidableEq κ] {key : κ}

theorem below (hrecords : guard.Records events) (hkey : ¬ guard.isVisiting key)
    (hdepth : guard.depth < guard.maxDepth) :
    (guard.below key).Records (events ++ [.enter key .entered]) where
  mem_visiting_iff other := by
    simp [Guard.below, IsUnderWay, happenedSince_concat, hrecords.mem_visiting_iff, eq_comm]
  mem_marked_iff other := by
    simp [Guard.below, IsMarked, happenedSince_concat, hrecords.mem_marked_iff]
  nodup_visiting := by
    have hvisiting : key ∉ guard.visiting := fun hmem => hkey (by simp [isVisiting, hmem])
    exact List.nodup_cons.mpr ⟨hvisiting, hrecords.nodup_visiting⟩
  depth_eq := congrArg (· + 1) hrecords.depth_eq
  depth_le := hdepth

theorem leave (hrecords : guard.Records events) (hkey : IsUnderWay events key) :
    (Guard.leave key guard).2.Records (events ++ [.leave key]) where
  mem_visiting_iff other := by
    simp [Guard.leave, IsUnderWay, happenedSince_concat, hrecords.nodup_visiting.mem_erase_iff,
      hrecords.mem_visiting_iff, and_comm, eq_comm]
  mem_marked_iff other := by
    simp [Guard.leave, IsMarked, happenedSince_concat, hrecords.mem_marked_iff]
  nodup_visiting := hrecords.nodup_visiting.erase key
  depth_eq := by
    have hvisiting := (hrecords.mem_visiting_iff key).mpr hkey
    simp [Guard.leave, List.length_erase_of_mem hvisiting, hrecords.depth_eq]
  depth_le := (Nat.sub_le _ _).trans hrecords.depth_le

theorem isVisiting_iff (hrecords : guard.Records events) (key : κ) :
    guard.isVisiting key ↔ IsUnderWay events key ∨ IsMarked events key := by
  simp [isVisiting, hrecords.mem_visiting_iff, hrecords.mem_marked_iff]

end Records

variable [DecidableEq κ]

/-! ## Runs -/

def Call.perform : Call κ → StateM (Guard κ) (Event κ)
  | .enter key => do return .enter key (← Guard.enter key)
  | .leave key => do
      Guard.leave key
      return .leave key
  | .mark key => do
      Guard.mark key
      return .mark key
  | .clearMarks => do
      Guard.clearMarks
      return .clearMarks

def run (maxDepth : Nat) (calls : List (Call κ)) : List (Event κ) × Guard κ :=
  calls.mapM Call.perform (ofMaxDepth maxDepth)

def LeavesUnderWay (maxDepth : Nat) (calls : List (Call κ)) : Prop :=
  ∀ before key after, calls = before ++ .leave key :: after →
    IsUnderWay (run maxDepth before).1 key

theorem run_concat (maxDepth : Nat) (calls : List (Call κ)) (call : Call κ) :
    run maxDepth (calls ++ [call]) =
      let (events, guard) := run maxDepth calls
      let (event, next) := call.perform guard
      (events ++ [event], next) := by
  rw [run, List.mapM_append]
  refine (bind_of_eq (rfl : calls.mapM Call.perform _ = run maxDepth calls) _).trans ?_
  rw [List.mapM_cons, List.mapM_nil]
  rfl

theorem Records.perform (hrecords : guard.Records events) (call : Call κ)
    (hleave : ∀ key, call = .leave key → IsUnderWay events key) :
    (call.perform guard).2.Records (events ++ [(call.perform guard).1]) ∧
      (call.perform guard).2.maxDepth = guard.maxDepth := by
  cases call with
  | enter key =>
      change (enter key guard).2.Records (events ++ [.enter key (enter key guard).1]) ∧
        (enter key guard).2.maxDepth = guard.maxDepth
      rcases guard.enter_cases key with ⟨-, heq⟩ | ⟨-, -, heq⟩ | ⟨hkey, hdepth, heq⟩
      · rw [heq]
        exact ⟨hrecords.refuse key nofun, rfl⟩
      · rw [heq]
        exact ⟨hrecords.refuse key nofun, rfl⟩
      · rw [heq]
        exact ⟨hrecords.below hkey hdepth, rfl⟩
  | leave key => exact ⟨hrecords.leave (hleave key rfl), rfl⟩
  | mark key => exact ⟨hrecords.mark key, rfl⟩
  | clearMarks => exact ⟨hrecords.clearMarks, rfl⟩

theorem run_records (maxDepth : Nat) {calls : List (Call κ)}
    (hleaves : LeavesUnderWay maxDepth calls) :
    (run maxDepth calls).2.Records (run maxDepth calls).1 ∧
      (run maxDepth calls).2.maxDepth = maxDepth := by
  -- From the end, as a call may only leave what is under way behind the calls before it.
  induction calls using List.reverseRecOn with
  | nil => exact ⟨records_ofMaxDepth maxDepth, rfl⟩
  | append_singleton calls call ih =>
      have hbefore : LeavesUnderWay maxDepth calls := by
        rintro before key after rfl
        exact hleaves before key (after ++ [call]) (by simp)
      obtain ⟨hrecords, hmaxDepth⟩ := ih hbefore
      obtain ⟨hnext, hsame⟩ := hrecords.perform call fun key hcall =>
        hleaves calls key [] (by rw [hcall])
      rw [run_concat]
      exact ⟨hnext, hsame.trans hmaxDepth⟩

/-- Behind any calls, the depth is the number of keys that were entered and not left since, and
never more than the limit.  The keys in the way are those and the ones marked since marks were last
cleared.  A key is refused as a cycle exactly if it is in the way, and else as too deep exactly if
the limit is reached; a refusal changes nothing, and marks never change the depth. -/
theorem run_answers_history (maxDepth : Nat) (calls : List (Call κ))
    (hleaves : LeavesUnderWay maxDepth calls) :
    let events := (run maxDepth calls).1
    let guard := (run maxDepth calls).2
    (∃ entered : Finset κ, (∀ key, key ∈ entered ↔ IsUnderWay events key) ∧
      guard.depth = entered.card ∧
      ∀ key, (enter key guard).1 = .tooDeep ↔
        ¬ (IsUnderWay events key ∨ IsMarked events key) ∧ entered.card = maxDepth) ∧
    guard.depth ≤ maxDepth ∧
    (∀ key, (mark key guard).2.depth = guard.depth) ∧
    (clearMarks guard).2.depth = guard.depth ∧
    (∀ key, guard.isVisiting key ↔ IsUnderWay events key ∨ IsMarked events key) ∧
    (∀ key, (enter key guard).1 = .cycle ↔ IsUnderWay events key ∨ IsMarked events key) ∧
    ∀ key, (enter key guard).1 ≠ .entered → (enter key guard).2 = guard := by
  intro events guard
  obtain ⟨hrecords, hmaxDepth⟩ : guard.Records events ∧ guard.maxDepth = maxDepth :=
    run_records maxDepth hleaves
  have hvisiting := hrecords.isVisiting_iff
  have hcard : guard.depth = guard.visiting.toFinset.card :=
    hrecords.depth_eq.trans (List.toFinset_card_of_nodup hrecords.nodup_visiting).symm
  have hdepth := hrecords.depth_le
  refine ⟨⟨guard.visiting.toFinset, fun key => ?_, hcard, fun key => ?_⟩, hmaxDepth ▸ hdepth,
    fun _ => rfl, rfl, hvisiting, fun key => ?_, fun key hanswer => ?_⟩
  · rw [List.mem_toFinset, hrecords.mem_visiting_iff]
  · rw [← hvisiting, ← hcard, ← hmaxDepth]
    rcases guard.enter_cases key with ⟨hkey, heq⟩ | ⟨hkey, hlimit, heq⟩ | ⟨hkey, hlimit, heq⟩
    · simp [heq, hkey]
    · simp [heq, hkey, Nat.le_antisymm hdepth hlimit]
    · simp [heq, hlimit.ne]
  · rw [← hvisiting]
    rcases guard.enter_cases key with ⟨hkey, heq⟩ | ⟨hkey, -, heq⟩ | ⟨hkey, -, heq⟩ <;>
      simp [heq, hkey]
  · rcases guard.enter_cases key with ⟨-, heq⟩ | ⟨-, -, heq⟩ | ⟨-, -, heq⟩
    · rw [heq]
    · rw [heq]
    · rw [heq] at hanswer
      exact absurd rfl hanswer

def sampleCalls : List (Call Nat) :=
  [.mark 7, .enter 1, .mark 1, .leave 1, .enter 1, .clearMarks, .enter 1, .enter 7, .enter 3]

theorem run_answers_history_sample :
    LeavesUnderWay 2 sampleCalls ∧
      (run 2 sampleCalls).1 = [.mark 7, .enter 1 .entered, .mark 1, .leave 1, .enter 1 .cycle,
        .clearMarks, .enter 1 .entered, .enter 7 .entered, .enter 3 .tooDeep] ∧
      (run 2 sampleCalls).2.depth ≤ 2 ∧
      ∀ key, (run 2 sampleCalls).2.isVisiting key ↔
        IsUnderWay (run 2 sampleCalls).1 key ∨ IsMarked (run 2 sampleCalls).1 key := by
  have hleaves : LeavesUnderWay 2 sampleCalls := by
    intro before key after hcalls
    obtain ⟨rfl, rfl, -⟩ : before = [.mark 7, .enter 1, .mark 1] ∧ key = 1 ∧
        after = [.enter 1, .clearMarks, .enter 1, .enter 7, .enter 3] := by
      simpa [sampleCalls, List.cons_eq_append_iff] using hcalls
    exact ⟨[.mark 7], [.mark 1], rfl, by decide⟩
  obtain ⟨-, hdepth, -, -, hvisiting, -⟩ := run_answers_history 2 sampleCalls hleaves
  exact ⟨hleaves, rfl, hdepth, hvisiting⟩

end MismatchReport.Guard
