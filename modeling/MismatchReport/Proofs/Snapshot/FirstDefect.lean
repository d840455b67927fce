import MismatchReport.Proofs.Snapshot.Places
import MismatchReport.Proofs.Snapshot.Validity

/-!
# The first defect of a snapshot

Where a snapshot can fail, as places in the order in which its defects are looked for: numbers that
are used twice, then the types of the table, then the diagnostics.  A snapshot checks if it fails
nowhere, and otherwise the defect of the first place is reported.
-/

namespace MismatchReport

open Placed

namespace Snapshot

def IsFirstFile (snapshot : Snapshot) (name : Text) (file : Source.SourceFile) : Prop :=
  ∃ before after, snapshot.files = before ++ file :: after ∧ file.name = name ∧
    ∀ earlier ∈ before, earlier.name ≠ name

def spanEnd (span : Source.Span) : Nat :=
  min (span.start.toNat + span.length.toNat) 4294967295

/-- Distinct numbers, no reference to a type that is not there, and diagnostics in files that are
long enough for them. -/
structure IsValid (snapshot : Snapshot) : Prop where
  distinct : (snapshot.types.map TypeEntry.id).Nodup
  types_known : ∀ entry ∈ snapshot.types, ∀ path id, entry.shape.UsesAt path id →
    id ∈ snapshot.types.map TypeEntry.id
  related_known : ∀ diagnostic ∈ snapshot.diagnostics, ∀ related ∈ diagnostic.relatedTypes,
    ∀ path id, related.UsesAt path id → id ∈ snapshot.types.map TypeEntry.id
  placed : ∀ diagnostic ∈ snapshot.diagnostics, diagnostic.file ≠ [] →
    ∃ file, snapshot.IsFirstFile diagnostic.file file ∧
      ∀ span ∈ diagnostic.span, spanEnd span ≤ Text.byteSize file.text

variable {snapshot : Snapshot}

theorem IsFirstFile.name_eq {name : Text} {file : Source.SourceFile}
    (hfile : snapshot.IsFirstFile name file) : file.name = name := by
  obtain ⟨-, -, -, hname, -⟩ := hfile
  exact hname

theorem file?_eq_some_iff {name : Text} {file : Source.SourceFile} :
    snapshot.file? name = some file ↔ snapshot.IsFirstFile name file := by
  rw [file?, List.find?_eq_some_iff_append]
  simp only [beq_iff_eq, Bool.not_eq_true', beq_eq_false_iff_ne]
  constructor
  · rintro ⟨hname, before, after, hfiles, hbefore⟩
    exact ⟨before, after, hfiles, hname, hbefore⟩
  · rintro ⟨before, after, hfiles, hname, hbefore⟩
    exact ⟨hname, before, after, hfiles, hbefore⟩

theorem forall_mem_types_iff {shape : Shape} {p : TypeId → Prop} :
    (∀ id ∈ shape.types, p id) ↔ ∀ path id, shape.UsesAt path id → p id := by
  rw [← shape.map_snd_placedTypes, List.forall_mem_map]
  simp [Prod.forall, Shape.mem_placedTypes_iff]

theorem forall_mem_related_iff {related : RelatedTypes TypeId} {p : TypeId → Prop} :
    (∀ id ∈ related.types, p id) ↔ ∀ path id, related.UsesAt path id → p id := by
  rw [← related.map_snd_placedTypes, List.forall_mem_map]
  simp [Prod.forall, RelatedTypes.mem_placedTypes_iff]

theorem check_eq_ok_iff_isValid {checked : Snapshot} :
    snapshot.check = .ok checked ↔ checked = snapshot ∧ snapshot.IsValid := by
  rw [check_eq_ok_iff, validate_eq_ok_iff]
  simp only [knows_iff, placeDefects_eq_nil_iff, forall_mem_types_iff, forall_mem_related_iff,
    file?_eq_some_iff]
  refine and_congr_right fun _ => ⟨?_, ?_⟩
  · rintro ⟨hdistinct, htypes, hdiagnostics⟩
    exact ⟨hdistinct, htypes, fun diagnostic hmem => (hdiagnostics diagnostic hmem).1,
      fun diagnostic hmem => (hdiagnostics diagnostic hmem).2⟩
  · intro hvalid
    exact ⟨hvalid.distinct, hvalid.types_known, fun diagnostic hmem =>
      ⟨hvalid.related_known diagnostic hmem, hvalid.placed diagnostic hmem⟩⟩

/-! ## Places of defects -/

/-- A place starts with the pass that finds the defect: numbers used twice by their slot in the
table, references of the types by slot, and diagnostics in order, each with its related types before
its file and its file before its span. -/
inductive FailsAt (snapshot : Snapshot) : List Nat → Defect → Prop
  | duplicateType {slot earlier : Nat} {entry other : TypeEntry}
      (hentry : snapshot.types[slot]? = some entry) (hearlier : earlier < slot)
      (hother : snapshot.types[earlier]? = some other) (hid : other.id = entry.id) :
      FailsAt snapshot [0, slot] (.duplicateType entry.id)
  | unknownMember {slot : Nat} {entry : TypeEntry} {path : List Nat} {id : TypeId}
      (hentry : snapshot.types[slot]? = some entry) (huse : entry.shape.UsesAt path id)
      (hid : id ∉ snapshot.types.map TypeEntry.id) :
      FailsAt snapshot (1 :: slot :: path) (.unknownType id (.type entry.id))
  | unknownRelated {index : Nat} {diagnostic : SnapshotDiagnostic} {related : RelatedTypes TypeId}
      {path : List Nat} {id : TypeId} (hdiagnostic : snapshot.diagnostics[index]? = some diagnostic)
      (hrelated : diagnostic.relatedTypes = some related) (huse : related.UsesAt path id)
      (hid : id ∉ snapshot.types.map TypeEntry.id) :
      FailsAt snapshot (2 :: index :: 0 :: path) (.unknownType id (.diagnostic index))
  | unknownFile {index : Nat} {diagnostic : SnapshotDiagnostic}
      (hdiagnostic : snapshot.diagnostics[index]? = some diagnostic)
      (hname : diagnostic.file ≠ [])
      (hfile : ∀ file ∈ snapshot.files, file.name ≠ diagnostic.file) :
      FailsAt snapshot [2, index, 1] (.unknownFile diagnostic.file)
  | spanOutOfBounds {index : Nat} {diagnostic : SnapshotDiagnostic} {file : Source.SourceFile}
      {span : Source.Span} (hdiagnostic : snapshot.diagnostics[index]? = some diagnostic)
      (hname : diagnostic.file ≠ []) (hfile : snapshot.IsFirstFile diagnostic.file file)
      (hspan : diagnostic.span = some span) (hend : Text.byteSize file.text < spanEnd span) :
      FailsAt snapshot [2, index, 2]
        (.spanOutOfBounds diagnostic.file (spanEnd span) (Text.byteSize file.text))

/-- The defect of the first place at which the snapshot fails. -/
def IsFirstDefect (snapshot : Snapshot) (defect : Defect) : Prop :=
  ∃ place, snapshot.FailsAt place defect ∧
    ∀ other later, snapshot.FailsAt other later → ¬ other < place

def placedDuplicates (snapshot : Snapshot) : List (Placed Defect) :=
  number (fun slot entry => ofOption <|
    if entry.id ∈ (snapshot.types.take slot).map TypeEntry.id then some (.duplicateType entry.id)
    else none) snapshot.types

theorem map_duplicateType_repeatedIds {seen : List TypeId} {before rest : List TypeEntry}
    (hseen : ∀ id, id ∈ seen ↔ id ∈ before.map TypeEntry.id) :
    (repeatedIds seen rest).map Defect.duplicateType =
      (rest.zipIdx before.length).flatMap fun (entry, slot) =>
        if entry.id ∈ ((before ++ rest).take slot).map TypeEntry.id
        then [.duplicateType entry.id] else [] := by
  induction rest generalizing seen before with
  | nil => rfl
  | cons entry rest ih =>
      have hlater := @ih (entry.id :: seen) (before ++ [entry]) (by simp [hseen, or_comm])
      rw [List.length_append, List.length_singleton, List.append_assoc,
        List.singleton_append] at hlater
      rw [repeatedIds, List.zipIdx_cons, List.flatMap_cons, ← hlater]
      simp only [hseen, List.take_left]
      split_ifs <;> rfl

theorem map_snd_placedDuplicates (snapshot : Snapshot) :
    snapshot.placedDuplicates.map Prod.snd = snapshot.duplicateTypes := by
  have hseen : ∀ id, id ∈ ([] : List TypeId) ↔ id ∈ ([] : List TypeEntry).map TypeEntry.id :=
    fun _ => Iff.rfl
  rw [duplicateTypes, map_duplicateType_repeatedIds hseen, placedDuplicates, map_snd_number]
  simp only [map_snd_ofOption, List.nil_append, List.length_nil, apply_ite Option.toList]
  rfl

theorem isOrdered_placedDuplicates (snapshot : Snapshot) : IsOrdered snapshot.placedDuplicates :=
  isOrdered_number fun _ _ _ => isOrdered_ofOption _

theorem mem_take_ids_iff {types : List TypeEntry} {slot : Nat} {id : TypeId} :
    id ∈ (types.take slot).map TypeEntry.id ↔
      ∃ earlier < slot, ∃ other, types[earlier]? = some other ∧ other.id = id := by
  rw [List.mem_map]
  simp only [List.mem_iff_getElem?, List.getElem?_take]
  constructor
  · rintro ⟨other, ⟨earlier, hother⟩, hid⟩
    split_ifs at hother with hearlier
    exact ⟨earlier, hearlier, other, hother, hid⟩
  · rintro ⟨earlier, hearlier, other, hother, hid⟩
    exact ⟨other, ⟨earlier, by rw [if_pos hearlier, hother]⟩, hid⟩

theorem mem_placedDuplicates_iff {path : List Nat} {defect : Defect} :
    (path, defect) ∈ snapshot.placedDuplicates ↔ snapshot.FailsAt (0 :: path) defect := by
  constructor
  · intro hmem
    obtain ⟨slot, entry, below, rfl, hentry, hbelow⟩ := mem_number_iff.mp hmem
    obtain ⟨rfl, hdefect⟩ := mem_ofOption_iff.mp hbelow
    split_ifs at hdefect with hseen
    obtain ⟨earlier, hearlier, other, hother, hid⟩ := mem_take_ids_iff.mp hseen
    cases hdefect
    exact .duplicateType hentry hearlier hother hid
  · intro hfails
    cases hfails with
    | duplicateType hentry hearlier hother hid =>
        refine mem_number hentry (mem_ofOption_iff.mpr ⟨rfl, if_pos ?_⟩)
        exact mem_take_ids_iff.mpr ⟨_, hearlier, _, hother, hid⟩

def placedUnknown (snapshot : Snapshot) (referrer : Referrer) (types : List (Placed TypeId)) :
    List (Placed Defect) :=
  (types.filter (!snapshot.knows ·.2)).map (Prod.map id (Defect.unknownType · referrer))

theorem map_snd_placedUnknown (referrer : Referrer) (types : List (Placed TypeId)) :
    (snapshot.placedUnknown referrer types).map Prod.snd =
      snapshot.unknownTypes referrer (types.map Prod.snd) := by
  simp [placedUnknown, unknownTypes, List.filter_map, Function.comp_def]

theorem isOrdered_placedUnknown (referrer : Referrer) {types : List (Placed TypeId)}
    (htypes : IsOrdered types) : IsOrdered (snapshot.placedUnknown referrer types) :=
  List.pairwise_map.mpr (htypes.filter _)

theorem mem_placedUnknown_iff {referrer : Referrer} {types : List (Placed TypeId)}
    {path : List Nat} {defect : Defect} :
    (path, defect) ∈ snapshot.placedUnknown referrer types ↔
      ∃ id, (path, id) ∈ types ∧ id ∉ snapshot.types.map TypeEntry.id ∧
        defect = .unknownType id referrer := by
  have hunknown : ∀ id, (!snapshot.knows id) = true ↔ id ∉ snapshot.types.map TypeEntry.id := by
    intro id
    rw [Bool.not_eq_true', ← Bool.not_eq_true, knows_iff]
  rw [placedUnknown, List.mem_map]
  simp only [List.mem_filter, hunknown, Prod.exists, Prod.map_apply, Prod.mk.injEq, id]
  constructor
  · rintro ⟨below, type, ⟨htype, hid⟩, rfl, rfl⟩
    exact ⟨type, htype, hid, rfl⟩
  · rintro ⟨type, htype, hid, rfl⟩
    exact ⟨path, type, ⟨htype, hid⟩, rfl, rfl⟩

def fileDefect? (snapshot : Snapshot) (diagnostic : Diagnostic) : Option Defect :=
  if diagnostic.file ≠ [] ∧ snapshot.file? diagnostic.file = none
  then some (.unknownFile diagnostic.file) else none

def spanDefect? (snapshot : Snapshot) (diagnostic : Diagnostic) : Option Defect :=
  if diagnostic.file = [] then none
  else do
    let file ← snapshot.file? diagnostic.file
    let span ← diagnostic.span
    if span.stop ≤ Text.byteSize file.text then none
    else some (.spanOutOfBounds file.name span.stop (Text.byteSize file.text))

theorem placeDefects_eq (diagnostic : Diagnostic) :
    snapshot.placeDefects diagnostic =
      (snapshot.fileDefect? diagnostic).toList ++ (snapshot.spanDefect? diagnostic).toList := by
  unfold placeDefects fileDefect? spanDefect?
  by_cases hname : diagnostic.file = []
  · simp [hname]
  · cases snapshot.file? diagnostic.file with
    | none => simp [hname]
    | some file =>
        cases diagnostic.span with
        | none => simp [hname]
        | some span =>
            by_cases hend : span.stop ≤ Text.byteSize file.text <;> simp [hname, hend]

theorem fileDefect?_eq_some_iff {diagnostic : Diagnostic} {defect : Defect} :
    snapshot.fileDefect? diagnostic = some defect ↔
      diagnostic.file ≠ [] ∧ (∀ file ∈ snapshot.files, file.name ≠ diagnostic.file) ∧
        defect = .unknownFile diagnostic.file := by
  have hmissing : snapshot.file? diagnostic.file = none ↔
      ∀ file ∈ snapshot.files, file.name ≠ diagnostic.file := by
    simp [file?]
  rw [fileDefect?, Option.ite_none_right_eq_some, hmissing, Option.some.injEq, and_assoc,
    eq_comm (b := defect)]

theorem spanDefect?_eq_some_iff {diagnostic : Diagnostic} {defect : Defect} :
    snapshot.spanDefect? diagnostic = some defect ↔
      diagnostic.file ≠ [] ∧ ∃ file span, snapshot.IsFirstFile diagnostic.file file ∧
        diagnostic.span = some span ∧ Text.byteSize file.text < spanEnd span ∧
        defect = .spanOutOfBounds diagnostic.file (spanEnd span) (Text.byteSize file.text) := by
  unfold spanDefect?
  by_cases hname : diagnostic.file = []
  · simp [hname]
  simp only [if_neg hname, Option.bind_eq_bind, Option.bind_eq_some_iff,
    Option.ite_none_left_eq_some, Nat.not_le, Option.some.injEq, file?_eq_some_iff]
  refine ⟨?_, ?_⟩
  · rintro ⟨file, hfile, span, hspan, hend, rfl⟩
    rw [hfile.name_eq]
    exact ⟨hname, file, span, hfile, hspan, hend, rfl⟩
  · rintro ⟨-, file, span, hfile, hspan, hend, rfl⟩
    refine ⟨file, hfile, span, hspan, hend, ?_⟩
    rw [hfile.name_eq]
    rfl

/-! ## The first defect -/

def placedDiagnostic (snapshot : Snapshot) (index : Nat) (diagnostic : SnapshotDiagnostic) :
    List (Placed Defect) :=
  number (fun _ defects => defects)
    [snapshot.placedUnknown (.diagnostic index)
        ((diagnostic.relatedTypes.map RelatedTypes.placedTypes).getD []),
      ofOption (snapshot.fileDefect? diagnostic.toDiagnostic),
      ofOption (snapshot.spanDefect? diagnostic.toDiagnostic)]

def placedDefects (snapshot : Snapshot) : List (Placed Defect) :=
  number (fun _ defects => defects)
    [snapshot.placedDuplicates,
      number (fun _ entry => snapshot.placedUnknown (.type entry.id) entry.shape.placedTypes)
        snapshot.types,
      number snapshot.placedDiagnostic snapshot.diagnostics]

theorem map_snd_placedDiagnostic (index : Nat) (diagnostic : SnapshotDiagnostic) :
    (snapshot.placedDiagnostic index diagnostic).map Prod.snd =
      snapshot.diagnosticDefects index diagnostic := by
  rw [placedDiagnostic, map_snd_number_const, diagnosticDefects, placeDefects_eq]
  cases diagnostic.relatedTypes <;>
    simp [map_snd_placedUnknown, map_snd_ofOption, RelatedTypes.map_snd_placedTypes]

theorem map_snd_placedDefects (snapshot : Snapshot) :
    snapshot.placedDefects.map Prod.snd = snapshot.duplicateTypes ++ snapshot.defects := by
  rw [placedDefects, map_snd_number_const, defects]
  simp only [List.flatMap_cons, List.flatMap_nil, List.append_nil, map_snd_placedDuplicates,
    map_snd_number_const, map_snd_placedUnknown, Shape.map_snd_placedTypes]
  simp only [map_snd_number, map_snd_placedDiagnostic]
  rfl

theorem isOrdered_placedDiagnostic (index : Nat) (diagnostic : SnapshotDiagnostic) :
    IsOrdered (snapshot.placedDiagnostic index diagnostic) := by
  refine isOrdered_number ?_
  simp only [List.forall_mem_cons]
  refine ⟨fun _ => isOrdered_placedUnknown _ ?_, fun _ => isOrdered_ofOption _,
    fun _ => isOrdered_ofOption _, List.forall_mem_nil _⟩
  cases diagnostic.relatedTypes with
  | none => exact .nil
  | some related => exact related.isOrdered_placedTypes

theorem mem_placedDiagnostic_iff {index : Nat} {diagnostic : SnapshotDiagnostic}
    (hdiagnostic : snapshot.diagnostics[index]? = some diagnostic) {path : List Nat}
    {defect : Defect} :
    (path, defect) ∈ snapshot.placedDiagnostic index diagnostic ↔
      snapshot.FailsAt (2 :: index :: path) defect := by
  constructor
  · intro hmem
    obtain ⟨pass, defects, below, rfl, hdefects, hbelow⟩ := mem_number_iff.mp hmem
    match pass, hdefects with
    | 0, rfl =>
        obtain ⟨id, hid, hunknown, rfl⟩ := mem_placedUnknown_iff.mp hbelow
        cases hrelated : diagnostic.relatedTypes with
        | none => simp [hrelated] at hid
        | some related =>
            rw [hrelated] at hid
            have huse := RelatedTypes.mem_placedTypes_iff.mp hid
            exact .unknownRelated hdiagnostic hrelated huse hunknown
    | 1, rfl =>
        obtain ⟨rfl, hdefect⟩ := mem_ofOption_iff.mp hbelow
        obtain ⟨hname, hfile, rfl⟩ := fileDefect?_eq_some_iff.mp hdefect
        exact .unknownFile hdiagnostic hname hfile
    | 2, rfl =>
        obtain ⟨rfl, hdefect⟩ := mem_ofOption_iff.mp hbelow
        obtain ⟨hname, file, span, hfile, hspan, hend, rfl⟩ := spanDefect?_eq_some_iff.mp hdefect
        exact .spanOutOfBounds hdiagnostic hname hfile hspan hend
  · intro hfails
    have hsame : ∀ {other}, snapshot.diagnostics[index]? = some other → other = diagnostic :=
      fun hother => Option.some.inj (hother.symm.trans hdiagnostic)
    unfold placedDiagnostic
    cases hfails with
    | unknownRelated hother hrelated huse hunknown =>
        obtain rfl := hsame hother
        refine mem_number rfl (mem_placedUnknown_iff.mpr ⟨_, ?_, hunknown, rfl⟩)
        rw [hrelated]
        exact RelatedTypes.mem_placedTypes_iff.mpr huse
    | unknownFile hother hname hfile =>
        obtain rfl := hsame hother
        exact mem_number rfl (mem_ofOption_iff.mpr
          ⟨rfl, fileDefect?_eq_some_iff.mpr ⟨hname, hfile, rfl⟩⟩)
    | spanOutOfBounds hother hname hfile hspan hend =>
        obtain rfl := hsame hother
        exact mem_number rfl (mem_ofOption_iff.mpr
          ⟨rfl, spanDefect?_eq_some_iff.mpr ⟨hname, _, _, hfile, hspan, hend, rfl⟩⟩)

theorem isOrdered_placedDefects (snapshot : Snapshot) : IsOrdered snapshot.placedDefects := by
  refine isOrdered_number ?_
  simp only [List.forall_mem_cons]
  exact ⟨fun _ => snapshot.isOrdered_placedDuplicates,
    fun _ => isOrdered_number fun entry _ _ =>
      isOrdered_placedUnknown _ entry.shape.isOrdered_placedTypes,
    fun _ => isOrdered_number fun diagnostic _ index =>
      isOrdered_placedDiagnostic index diagnostic, List.forall_mem_nil _⟩

theorem mem_placedDefects_iff {path : List Nat} {defect : Defect} :
    (path, defect) ∈ snapshot.placedDefects ↔ snapshot.FailsAt path defect := by
  constructor
  · intro hmem
    obtain ⟨pass, defects, below, rfl, hdefects, hbelow⟩ := mem_number_iff.mp hmem
    match pass, hdefects with
    | 0, rfl => exact mem_placedDuplicates_iff.mp hbelow
    | 1, rfl =>
        obtain ⟨slot, entry, path, rfl, hentry, hpath⟩ := mem_number_iff.mp hbelow
        obtain ⟨id, hid, hunknown, rfl⟩ := mem_placedUnknown_iff.mp hpath
        exact .unknownMember hentry (Shape.mem_placedTypes_iff.mp hid) hunknown
    | 2, rfl =>
        obtain ⟨index, diagnostic, path, rfl, hdiagnostic, hpath⟩ := mem_number_iff.mp hbelow
        exact (mem_placedDiagnostic_iff hdiagnostic).mp hpath
  · intro hfails
    unfold placedDefects
    have hdiagnostics : ∀ {index below} {diagnostic : SnapshotDiagnostic},
        snapshot.FailsAt (2 :: index :: below) defect →
        snapshot.diagnostics[index]? = some diagnostic →
        (index :: below, defect) ∈ number snapshot.placedDiagnostic snapshot.diagnostics :=
      fun hfails hdiagnostic =>
        mem_number hdiagnostic ((mem_placedDiagnostic_iff hdiagnostic).mpr hfails)
    -- The cases give back what their constructor needs; the failure itself is used whole.
    cases id hfails with
    | duplicateType => exact mem_number rfl (mem_placedDuplicates_iff.mpr hfails)
    | unknownMember hentry huse hunknown =>
        refine mem_number rfl (mem_number hentry ?_)
        exact mem_placedUnknown_iff.mpr ⟨_, Shape.mem_placedTypes_iff.mpr huse, hunknown, rfl⟩
    | unknownRelated hdiagnostic | unknownFile hdiagnostic | spanOutOfBounds hdiagnostic =>
        exact mem_number rfl (hdiagnostics hfails hdiagnostic)

theorem check_eq_error_iff {defect : Defect} :
    snapshot.check = .error defect ↔
      (snapshot.duplicateTypes ++ snapshot.defects).head? = some defect := by
  unfold check validate
  cases snapshot.duplicateTypes with
  | cons first rest => simp [bind, Except.bind]
  | nil =>
      cases snapshot.defects with
      | nil => simp [bind, Except.bind, pure, Except.pure]
      | cons first rest => simp [bind, Except.bind]

theorem check_eq_error_iff_isFirstDefect {defect : Defect} :
    snapshot.check = .error defect ↔ snapshot.IsFirstDefect defect := by
  rw [check_eq_error_iff, ← map_snd_placedDefects, List.head?_map, Option.map_eq_some_iff]
  simp only [Prod.exists, snapshot.isOrdered_placedDefects.head?_eq_some_iff, Prod.forall,
    mem_placedDefects_iff, IsFirstDefect]
  constructor
  · rintro ⟨place, _, ⟨hfails, hfirst⟩, rfl⟩
    exact ⟨place, hfails, hfirst⟩
  · rintro ⟨place, hfails, hfirst⟩
    exact ⟨place, defect, ⟨hfails, hfirst⟩, rfl⟩

end Snapshot

end MismatchReport
