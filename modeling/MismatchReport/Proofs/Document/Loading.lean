import MismatchReport.Proofs.Document.Nesting
import MismatchReport.Proofs.Snapshot.FirstDefect

/-!
# Documents that load

A document that decodes loads if its snapshot is valid.  Otherwise the error is the first defect of
the snapshot.
-/

namespace MismatchReport.Document

open Json

def Decodes (text : Text) (snapshot : Snapshot) : Prop :=
  (parse? text).bind (decodeSnapshot documentScope) = some snapshot

theorem decodes_writeSnapshot {snapshot : Snapshot}
    (hnesting : (encodeSnapshot snapshot).nesting ≤ nestingLimit) :
    Decodes (writeSnapshot snapshot) snapshot := by
  rw [Decodes, writeSnapshot, parse?_write (lawful_snapshot.isSimple snapshot)]
  exact lawful_snapshot.reads snapshot documentScope hnesting

theorem readSnapshot_eq_of_decodes {text : Text} {snapshot : Snapshot}
    (hdecodes : Decodes text snapshot) :
    readSnapshot text = snapshot.check.mapError .invalid := by
  obtain ⟨json, hparse, hdecode⟩ := Option.bind_eq_some_iff.mp hdecodes
  simp only [readSnapshot, hparse, loadSnapshot, hdecode]

/-- A document that decodes gives its snapshot exactly if that is valid, and the error that it
gives otherwise is the first defect. -/
theorem readSnapshot_of_decodes {text : Text} {snapshot : Snapshot}
    (hdecodes : Decodes text snapshot) :
    (∀ loaded, readSnapshot text = .ok loaded ↔ loaded = snapshot ∧ snapshot.IsValid) ∧
      ∀ error, readSnapshot text = .error error ↔
        ∃ defect, error = .invalid defect ∧ snapshot.IsFirstDefect defect := by
  rw [readSnapshot_eq_of_decodes hdecodes]
  constructor
  · intro loaded
    rw [← Snapshot.check_eq_ok_iff_isValid]
    cases snapshot.check <;> simp [Except.mapError]
  · intro error
    simp only [← Snapshot.check_eq_error_iff_isFirstDefect]
    cases snapshot.check <;> simp [Except.mapError, eq_comm]

def faultyEntry : TypeEntry where
  id := ⟨1⟩
  text := "F"
  shape := .object [.property "a" ⟨1⟩, .method "f" [⟨"x", none⟩, ⟨"y", some ⟨9⟩⟩] ⟨8⟩]

def faultyDiagnostic : SnapshotDiagnostic where
  file := "a.ts"
  code := 2322
  message := { text := "no" }

def faultySnapshot : Snapshot where
  types := [faultyEntry]
  diagnostics := [faultyDiagnostic]

theorem readSnapshot_faulty :
    readSnapshot (writeSnapshot faultySnapshot) =
        .error (.invalid (.unknownType ⟨9⟩ (.type ⟨1⟩))) ∧
      faultySnapshot.FailsAt [1, 0, 1, 1] (.unknownType ⟨9⟩ (.type ⟨1⟩)) ∧
      faultySnapshot.FailsAt [2, 0, 1] (.unknownFile "a.ts") := by
  have hentry : faultySnapshot.types[0]? = some faultyEntry := rfl
  have hdiagnostic : faultySnapshot.diagnostics[0]? = some faultyDiagnostic := rfl
  have hdecodes : Decodes (writeSnapshot faultySnapshot) faultySnapshot :=
    decodes_writeSnapshot (by decide)
  have hfirst : faultySnapshot.IsFirstDefect (.unknownType ⟨9⟩ (.type ⟨1⟩)) :=
    Snapshot.check_eq_error_iff_isFirstDefect.mp rfl
  obtain ⟨-, herror⟩ := readSnapshot_of_decodes hdecodes
  refine ⟨(herror _).mpr ⟨_, rfl, hfirst⟩, ?_, ?_⟩
  · exact .unknownMember hentry (.member rfl (.param rfl rfl)) (by decide)
  · exact .unknownFile hdiagnostic (by decide) (by decide)

end MismatchReport.Document
