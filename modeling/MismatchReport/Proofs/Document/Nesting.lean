import MismatchReport.Proofs.Document.RoundTrip

/-!
# How deep documents nest

Only message chains nest without a bound.  The types of a snapshot stay within eight brackets, and
a decoded chain within the room that its decoder had.
-/

namespace MismatchReport.Document

open Json Json.Decoder

theorem room_pos_of_decodeReason {scope : Scope} {json : Json} {reason : Reason}
    (hreason : decodeReason scope json = some reason) : 0 < scope.room := by
  obtain ⟨tagged, htagged, -⟩ := Option.bind_eq_some_iff.mp hreason
  exact tagged_eq_some htagged

theorem nesting_encodeReason_le {reason : Reason} {room : Nat} (hpos : 0 < room) :
    (encodeReason reason).nesting ≤ room := by
  cases reason <;> simp [encodeReason, nesting_ofFields_le_iff, hpos]

theorem nesting_encodeChain_le_iff {chain : MessageChain} {room : Nat} :
    (encodeChain chain).nesting ≤ room ↔
      0 < room ∧ (∀ reason ∈ chain.reason, (encodeReason reason).nesting ≤ room - 1) ∧
        (chain.children ≠ [] → 0 < room - 1) ∧
        ∀ child ∈ chain.children, (encodeChain child).nesting ≤ room - 1 - 1 := by
  rw [encodeChain_eq, nesting_ofFields_le_iff]
  simp only [chainFields, List.forall_mem_append, forall_mem_field, forall_mem_optionalField,
    nesting_ofText]
  rcases chain with ⟨text, reason, _ | ⟨child, children⟩⟩
  · simp [childrenField]
  · rw [childrenField, forall_mem_field, nesting_array_le_iff, List.forall_mem_map]
    · simp
    · exact List.cons_ne_nil _ _

theorem nesting_of_decodeChainWithin {depth : Nat} {scope : Scope} {json : Json}
    {chain : MessageChain} (hchain : decodeChainWithin depth scope json = some chain) :
    (encodeChain chain).nesting ≤ scope.room := by
  induction depth generalizing scope json chain with
  | zero => cases hchain
  | succ depth ih =>
      obtain ⟨record, hrecord, hchain⟩ := Option.bind_eq_some_iff.mp hchain
      obtain ⟨text, -, hchain⟩ := Option.bind_eq_some_iff.mp hchain
      obtain ⟨reason, hreason, hchain⟩ := Option.bind_eq_some_iff.mp hchain
      obtain ⟨children, hchildren, hchain⟩ := Option.bind_eq_some_iff.mp hchain
      cases hchain
      obtain ⟨hpos, hscope⟩ := record_eq_some hrecord
      rw [nesting_encodeChain_le_iff]
      refine ⟨hpos, ?_, ?_, ?_⟩
      · rintro value rfl
        obtain ⟨json, hjson⟩ := optional_eq_some hreason
        have hroom := room_pos_of_decodeReason hjson
        rw [hscope] at hroom
        exact nesting_encodeReason_le hroom
      all_goals
        obtain rfl | ⟨json, hjson⟩ := defaulted_eq_some hchildren
        · simp
        obtain ⟨hroom, hitems⟩ := mem_of_list_eq_some hjson
        rw [hscope] at hroom hitems
      · exact fun _ => hroom
      · intro child hchild
        obtain ⟨item, hitem⟩ := hitems child hchild
        exact ih hitem

theorem nesting_of_decodeDiagnostic {scope : Scope} {json : Json} {diagnostic : Diagnostic}
    (hdiagnostic : decodeDiagnostic scope json = some diagnostic) :
    (encodeChain diagnostic.message).nesting ≤ scope.room - 1 := by
  obtain ⟨record, hrecord, hdiagnostic⟩ := Option.bind_eq_some_iff.mp hdiagnostic
  obtain ⟨file, -, hdiagnostic⟩ := Option.bind_eq_some_iff.mp hdiagnostic
  obtain ⟨span, -, hdiagnostic⟩ := Option.bind_eq_some_iff.mp hdiagnostic
  obtain ⟨code, -, hdiagnostic⟩ := Option.bind_eq_some_iff.mp hdiagnostic
  obtain ⟨category, -, hdiagnostic⟩ := Option.bind_eq_some_iff.mp hdiagnostic
  obtain ⟨message, hmessage, hdiagnostic⟩ := Option.bind_eq_some_iff.mp hdiagnostic
  cases hdiagnostic
  obtain ⟨json, hjson⟩ := required_eq_some hmessage
  rw [← Scope.inside_room, ← (record_eq_some hrecord).2]
  exact nesting_of_decodeChainWithin hjson

theorem nesting_of_decodeSnapshotDiagnostic {scope : Scope} {json : Json}
    {diagnostic : SnapshotDiagnostic}
    (hdiagnostic : decodeSnapshotDiagnostic scope json = some diagnostic) :
    (encodeChain diagnostic.message).nesting ≤ scope.room - 1 := by
  obtain ⟨joined, hjoined, hdiagnostic⟩ := Option.bind_eq_some_iff.mp hdiagnostic
  obtain ⟨related, -, hdiagnostic⟩ := Option.bind_eq_some_iff.mp hdiagnostic
  obtain ⟨inner, hinner, hdiagnostic⟩ := Option.bind_eq_some_iff.mp hdiagnostic
  cases hdiagnostic
  have hroom := nesting_of_decodeDiagnostic hinner
  rwa [joined_eq_some hjoined] at hroom

theorem nesting_encodeMember_le (member : Member TypeId) : (encodeMember member).nesting ≤ 3 := by
  have hparam : ∀ param : Param TypeId, (encodeParam param).nesting ≤ 1 := by
    rintro ⟨name, _ | id⟩ <;>
      simp [encodeParam, nesting_ofFields_le_iff, Json.field, optionalField, encodeTypeId]
  cases member with
  | property name type => simp [encodeMember, nesting_ofFields_le_iff, encodeTypeId]
  | method name params result =>
      simp [encodeMember, nesting_ofFields_le_iff, nesting_array_le_iff, encodeTypeId, hparam]

theorem nesting_encodeTypeIds_le (ids : List TypeId) : (encodeTypeIds ids).nesting ≤ 1 := by
  simp [encodeTypeIds, nesting_array_le_iff, encodeTypeId]

theorem nesting_encodeShape_le (shape : Shape) : (encodeShape shape).nesting ≤ 5 := by
  cases shape with
  | leaf => simp [encodeShape, nesting_ofFields_le_iff]
  | object members =>
      simp [encodeShape, nesting_ofFields_le_iff, nesting_array_le_iff, nesting_encodeMember_le]
  | composite kind types =>
      have htypes := nesting_encodeTypeIds_le types
      simp [encodeShape, nesting_ofFields_le_iff]
      omega

theorem nesting_encodeDeclarations_le (declarations : List Declaration) :
    (encodeDeclarations declarations).nesting ≤ 3 := by
  have hparent : ∀ parent, (encodeParent parent).nesting ≤ 1 := by
    rintro (_ | _ | _ | _) <;> simp [encodeParent, nesting_ofFields_le_iff]
  have hdeclaration : ∀ declaration, (encodeDeclaration declaration).nesting ≤ 2 := by
    rintro ⟨_ | _ | _, _ | parent⟩ <;>
      simp [encodeDeclaration, declarationKindFields, nesting_ofFields_le_iff,
        nesting_array_le_iff, Json.field, optionalField, hparent]
  simp [encodeDeclarations, nesting_array_le_iff, hdeclaration]

theorem nesting_encodeTypeEntry_le (entry : TypeEntry) : (encodeTypeEntry entry).nesting ≤ 6 := by
  rw [encodeTypeEntry, nesting_ofFields_le_iff]
  simp only [List.forall_mem_append, forall_mem_field, forall_mem_optionalField]
  refine ⟨by decide, ⟨⟨⟨⟨Nat.zero_le _, Nat.zero_le _⟩, nesting_encodeShape_le _⟩, ?_⟩,
    Nat.zero_le _⟩⟩
  intro declarations _
  exact (nesting_encodeDeclarations_le declarations).trans (by decide)

theorem nesting_encodeSnapshotDiagnostic_le_iff {diagnostic : SnapshotDiagnostic} {room : Nat}
    (hroom : 3 ≤ room) :
    (encodeSnapshotDiagnostic diagnostic).nesting ≤ room ↔
      (encodeChain diagnostic.message).nesting ≤ room - 1 := by
  have hspan : ∀ span, (encodeSpan span).nesting ≤ room - 1 := by
    intro span
    simp [encodeSpan, nesting_ofFields_le_iff]
    omega
  have hrelated : ∀ related, (encodeRelatedTypes related).nesting ≤ room - 1 := by
    intro related
    have hids := fun ids => (nesting_encodeTypeIds_le ids).trans (by omega : 1 ≤ room - 1 - 1)
    simp [encodeRelatedTypes, nesting_ofFields_le_iff, encodeTypeId, hids]
    omega
  have hpos : 0 < room := by omega
  rw [encodeSnapshotDiagnostic, nesting_ofFields_le_iff]
  simp only [diagnosticFields, List.forall_mem_append, forall_mem_field, forall_mem_optionalField]
  simp [hpos, hspan, hrelated, encodeCategory]

theorem nesting_encodeSnapshot_le_iff {snapshot : Snapshot} {room : Nat} (hroom : 8 ≤ room) :
    (encodeSnapshot snapshot).nesting ≤ room ↔
      ∀ diagnostic ∈ snapshot.diagnostics,
        (encodeChain diagnostic.message).nesting ≤ room - 3 := by
  have hfile : ∀ file, (encodeFile file).nesting ≤ room - 1 - 1 := by
    intro file
    simp [encodeFile, nesting_ofFields_le_iff]
    omega
  have hentry : ∀ entry, (encodeTypeEntry entry).nesting ≤ room - 1 - 1 :=
    fun entry => (nesting_encodeTypeEntry_le entry).trans (by omega)
  have hdiagnostic : ∀ diagnostic, (encodeSnapshotDiagnostic diagnostic).nesting ≤ room - 1 - 1 ↔
      (encodeChain diagnostic.message).nesting ≤ room - 3 :=
    fun diagnostic => nesting_encodeSnapshotDiagnostic_le_iff (by omega)
  have hpos : 0 < room := by omega
  have hinside : 0 < room - 1 := by omega
  rw [encodeSnapshot, nesting_ofFields_le_iff]
  simp only [List.forall_mem_cons, nesting_array_le_iff, List.forall_mem_map]
  simp [hpos, hinside, hfile, hentry, hdiagnostic]

theorem nesting_of_decodeSnapshot {json : Json} {snapshot : Snapshot}
    (hsnapshot : decodeSnapshot documentScope json = some snapshot) :
    (encodeSnapshot snapshot).nesting ≤ nestingLimit := by
  obtain ⟨record, hrecord, hsnapshot⟩ := Option.bind_eq_some_iff.mp hsnapshot
  obtain ⟨files, -, hsnapshot⟩ := Option.bind_eq_some_iff.mp hsnapshot
  obtain ⟨types, -, hsnapshot⟩ := Option.bind_eq_some_iff.mp hsnapshot
  obtain ⟨diagnostics, hdiagnostics, hsnapshot⟩ := Option.bind_eq_some_iff.mp hsnapshot
  cases hsnapshot
  rw [nesting_encodeSnapshot_le_iff (by decide)]
  intro diagnostic hmem
  obtain rfl | ⟨json, hjson⟩ := defaulted_eq_some hdiagnostics
  · cases hmem
  obtain ⟨item, hitem⟩ := (mem_of_list_eq_some hjson).2 diagnostic hmem
  have hroom := nesting_of_decodeSnapshotDiagnostic hitem
  rwa [(record_eq_some hrecord).2] at hroom

end MismatchReport.Document
