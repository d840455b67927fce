import MismatchReport.Document.Snapshot
import MismatchReport.Proofs.Json.Decoding

/-!
# Documents read back

What each encoder makes is read back by its decoder, wherever there is room for its brackets.
-/

namespace MismatchReport.Document

open Json Json.Decoder

theorem lawful_reason : Lawful encodeReason decodeReason where
  isSimple reason := by cases reason <;> exact .fields (by simp)
  reads reason scope hroom := by
    cases reason with
    | propertyIncompatible name | parameterIncompatible name =>
        refine bind_eq_of_eq_some
          (tagged_ofFields (by decide) (by simp [tagName]) (by simp) hroom) ?_
        refine (if_neg (by simp)).trans ?_
        refine bind_eq_of_eq_some
          (tagged_record_ofFields (by decide) (by simp) (nesting_ofFields_tail hroom)) ?_
        exact bind_eq_of_eq_some (required_text rfl) rfl
    | returnIncompatible =>
        exact bind_eq_of_eq_some (tagged_ofFields (by decide) (by simp) (by simp) hroom) rfl

def childrenField : List MessageChain → List (Text × Json)
  | [] => []
  | children => Json.field "children" (.array (children.map encodeChain))

def chainFields (chain : MessageChain) : List (Text × Json) :=
  Json.field "text" (.ofText chain.text) ++
    Json.optionalField "reason" encodeReason chain.reason ++ childrenField chain.children

theorem encodeChains_eq_map (chains : List MessageChain) :
    encodeChains chains = chains.map encodeChain := by
  induction chains with
  | nil => rfl
  | cons chain chains ih => rw [encodeChains, ih, List.map_cons]

theorem encodeChain_eq (chain : MessageChain) :
    encodeChain chain = .ofFields (chainFields chain) := by
  rcases chain with ⟨text, reason, _ | ⟨child, children⟩⟩
  · rw [encodeChain, chainFields, childrenField, List.append_nil]
  · rw [encodeChain, encodeChains_eq_map]
    rfl

theorem chainFields_names (chain : MessageChain) :
    ((chainFields chain).map Prod.fst).Sublist ["text", "reason", "children"] := by
  rcases chain with ⟨text, _ | reason, _ | ⟨child, children⟩⟩ <;>
    simp [chainFields, Json.field, optionalField, childrenField]

theorem decodeChainWithin_encodeChain {depth : Nat} {chain : MessageChain} {scope : Scope}
    (hroom : (encodeChain chain).nesting ≤ scope.room)
    (hdepth : (encodeChain chain).nesting ≤ depth) :
    decodeChainWithin depth scope (encodeChain chain) = some chain := by
  induction depth generalizing chain scope with
  | zero =>
      rw [encodeChain_eq, nesting_ofFields_le_iff] at hdepth
      omega
  | succ depth ih =>
      rw [encodeChain_eq] at hroom hdepth ⊢
      obtain ⟨hpos, hparts⟩ := nesting_ofFields_le_iff.mp hroom
      obtain ⟨-, hlevels⟩ := nesting_ofFields_le_iff.mp hdepth
      refine bind_eq_of_eq_some (record_ofFields (by decide) (chainFields_names chain) hroom) ?_
      rcases chain with ⟨text, reason, children⟩
      refine bind_eq_of_eq_some (required_text rfl) ?_
      have hreason : ∀ value ∈ reason, (encodeReason value).nesting ≤ scope.inside.room := by
        intro value hvalue
        exact hparts ("reason", encodeReason value) (by
          simp [chainFields, mem_optionalField hvalue])
      refine bind_eq_of_eq_some (optional_of_lawful lawful_reason ?_ hreason) ?_
      · cases reason <;> cases children <;> rfl
      cases children with
      | nil => cases reason <;> rfl
      | cons child children =>
          have hfield : (("children" : Text), Json.array ((child :: children).map encodeChain)) ∈
              chainFields ⟨text, reason, child :: children⟩ :=
            List.mem_append_right _ (List.mem_singleton.mpr rfl)
          have hchildren : list (decodeChainWithin depth) scope.inside
              (.array ((child :: children).map encodeChain)) = some (child :: children) := by
            refine list_array (hparts _ hfield) fun value hvalue => ih ?_ ?_
            · have hitems := (nesting_array_le_iff.mp (hparts _ hfield)).2
              exact hitems _ (List.mem_map_of_mem hvalue)
            · have hitems := (nesting_array_le_iff.mp (hlevels _ hfield)).2
              have hitem := hitems _ (List.mem_map_of_mem hvalue)
              omega
          have hdefaulted : Record.defaulted
              ⟨scope.inside, chainFields ⟨text, reason, child :: children⟩⟩ "children" []
                (list (decodeChainWithin depth)) = some (child :: children) := by
            rw [← hchildren]
            cases reason <;> rfl
          exact bind_eq_of_eq_some hdefaulted rfl

mutual

theorem isSimple_encodeChain : ∀ chain : MessageChain, (encodeChain chain).IsSimple
  | ⟨text, reason, children⟩ => by
      have hchildren := isSimple_encodeChains children
      rw [encodeChains_eq_map] at hchildren
      rw [encodeChain_eq]
      refine .fields ?_
      simp only [chainFields, List.forall_mem_append, forall_mem_field, forall_mem_optionalField]
      refine ⟨⟨.text text, fun value _ => lawful_reason.isSimple value⟩, ?_⟩
      cases children with
      | nil => simp [childrenField]
      | cons child children =>
          rw [childrenField, forall_mem_field]
          · exact .array hchildren
          · exact List.cons_ne_nil _ _

theorem isSimple_encodeChains :
    ∀ chains : List MessageChain, ∀ json ∈ encodeChains chains, json.IsSimple
  | [] => by simp [encodeChains]
  | chain :: chains => by
      rw [encodeChains, List.forall_mem_cons]
      exact ⟨isSimple_encodeChain chain, isSimple_encodeChains chains⟩

end

theorem lawful_chain : Lawful encodeChain decodeChain where
  isSimple := isSimple_encodeChain
  reads _ _ hroom := decodeChainWithin_encodeChain hroom hroom

theorem lawful_span : Lawful encodeSpan decodeSpan where
  isSimple span := .fields (by simp)
  reads span scope hroom := by
    refine bind_eq_of_eq_some (record_ofFields (by decide) (by simp) hroom) ?_
    refine bind_eq_of_eq_some (required_of_lawful lawful_word rfl (Nat.zero_le _)) ?_
    exact bind_eq_of_eq_some (required_of_lawful lawful_word rfl (Nat.zero_le _)) rfl

theorem lawful_category : Lawful encodeCategory decodeCategory where
  isSimple category := .text category.name
  reads category _ _ := by cases category <;> rfl

theorem diagnosticFields_names (diagnostic : Diagnostic) :
    ((diagnosticFields diagnostic).map Prod.fst).Sublist
      ["file", "span", "code", "category", "message"] := by
  rcases diagnostic with ⟨file, _ | span, code, category, message⟩ <;>
    simp [diagnosticFields, Json.field, optionalField]

theorem isSimple_diagnosticFields (diagnostic : Diagnostic) :
    ∀ entry ∈ diagnosticFields diagnostic, entry.2.IsSimple := by
  simp only [diagnosticFields, List.forall_mem_append, forall_mem_field, forall_mem_optionalField]
  exact ⟨⟨⟨⟨.text _, fun span _ => lawful_span.isSimple span⟩, .word _⟩,
    lawful_category.isSimple _⟩, lawful_chain.isSimple _⟩

theorem lawful_diagnostic : Lawful encodeDiagnostic decodeDiagnostic where
  isSimple diagnostic := .fields (isSimple_diagnosticFields diagnostic)
  reads diagnostic scope hroom := by
    obtain ⟨-, hparts⟩ := nesting_ofFields_le_iff.mp hroom
    refine bind_eq_of_eq_some
      (record_ofFields (by decide) (diagnosticFields_names diagnostic) hroom) ?_
    refine bind_eq_of_eq_some (defaulted_of_lawful lawful_text rfl (Nat.zero_le _)) ?_
    have hspan : ∀ span ∈ diagnostic.span, (encodeSpan span).nesting ≤ scope.inside.room := by
      intro span hspan
      exact hparts ("span", encodeSpan span) (by
        simp [diagnosticFields, mem_optionalField hspan])
    have hmessage : (encodeChain diagnostic.message).nesting ≤ scope.inside.room :=
      hparts ("message", encodeChain diagnostic.message) (by simp [diagnosticFields, Json.field])
    rcases diagnostic with ⟨file, span, code, category, message⟩
    have hcode : Record.field?
        ⟨scope.inside, diagnosticFields ⟨file, span, code, category, message⟩⟩ "code" =
          some (Json.ofWord code) := by
      cases span <;> rfl
    have hcategory : Record.field?
        ⟨scope.inside, diagnosticFields ⟨file, span, code, category, message⟩⟩ "category" =
          some (encodeCategory category) := by
      cases span <;> rfl
    refine bind_eq_of_eq_some (optional_of_lawful lawful_span ?_ hspan) ?_
    · cases span <;> rfl
    refine bind_eq_of_eq_some (required_of_lawful lawful_word hcode (Nat.zero_le _)) ?_
    refine bind_eq_of_eq_some (defaulted_of_lawful lawful_category hcategory (Nat.zero_le _)) ?_
    refine bind_eq_of_eq_some (required_of_lawful lawful_chain ?_ hmessage) rfl
    cases span <;> rfl

/-! ## Types -/

theorem lawful_typeId : Lawful encodeTypeId decodeTypeId where
  isSimple id := .word id.value
  reads id scope _ := by simp [encodeTypeId, decodeTypeId]

theorem lawful_typeIds : Lawful encodeTypeIds decodeTypeIds := lawful_list lawful_typeId

theorem lawful_param : Lawful encodeParam decodeParam where
  isSimple param := .fields (by
    simp only [List.forall_mem_append, forall_mem_field, forall_mem_optionalField]
    exact ⟨.text _, fun id _ => .word id.value⟩)
  reads param scope hroom := by
    rcases param with ⟨name, type⟩
    refine bind_eq_of_eq_some (record_ofFields (by decide) ?_ hroom) ?_
    · cases type <;> simp [Json.field, optionalField]
    refine bind_eq_of_eq_some (required_text rfl) ?_
    refine bind_eq_of_eq_some
      (optional_of_lawful lawful_typeId ?_ fun _ _ => Nat.zero_le _) rfl
    cases type <;> rfl

theorem lawful_member : Lawful encodeMember decodeMember where
  isSimple member := by
    cases member with
    | property name type => exact .fields (by simp [encodeTypeId])
    | method name params result =>
        have hparams := (lawful_list lawful_param).isSimple params
        exact .fields (by simp [encodeTypeId, hparams])
  reads member scope hroom := by
    cases member with
    | property name type =>
        refine bind_eq_of_eq_some
          (tagged_ofFields (by decide) (by simp [tagName]) (by simp [encodeTypeId]) hroom) ?_
        refine (if_pos rfl).trans ?_
        refine bind_eq_of_eq_some
          (tagged_record_ofFields (by decide) (by simp) (nesting_ofFields_tail hroom)) ?_
        refine bind_eq_of_eq_some (required_text rfl) ?_
        exact bind_eq_of_eq_some (required_of_lawful lawful_typeId rfl (Nat.zero_le _)) rfl
    | method name params result =>
        have hlist := lawful_list lawful_param
        obtain ⟨-, hparts⟩ := nesting_ofFields_le_iff.mp hroom
        have hparams : (Json.array (params.map encodeParam)).nesting ≤ scope.inside.room :=
          hparts ("params", .array (params.map encodeParam)) (by simp)
        refine bind_eq_of_eq_some (tagged_ofFields (by decide) (by simp [tagName])
          (by simp [encodeTypeId, hlist.isSimple params]) hroom) ?_
        refine (if_neg (by simp)).trans ?_
        refine bind_eq_of_eq_some
          (tagged_record_ofFields (by decide) (by simp) (nesting_ofFields_tail hroom)) ?_
        refine bind_eq_of_eq_some (required_text rfl) ?_
        refine bind_eq_of_eq_some (defaulted_of_lawful hlist rfl hparams) ?_
        exact bind_eq_of_eq_some (required_of_lawful lawful_typeId rfl (Nat.zero_le _)) rfl

theorem lawful_shape : Lawful encodeShape decodeShape where
  isSimple shape := by
    cases shape with
    | leaf => exact .fields (by simp)
    | object members => exact .fields (by simp [(lawful_list lawful_member).isSimple members])
    | composite kind types => exact .fields (by simp [lawful_typeIds.isSimple types])
  reads shape scope hroom := by
    cases shape with
    | leaf => exact bind_eq_of_eq_some (tagged_ofFields (by decide) (by simp) (by simp) hroom) rfl
    | object members =>
        have hlist := lawful_list lawful_member
        have hmembers : (Json.array (members.map encodeMember)).nesting ≤ scope.inside.room :=
          (nesting_ofFields_le_iff.mp hroom).2 ("members", .array (members.map encodeMember))
            (by simp)
        refine bind_eq_of_eq_some (tagged_ofFields (by decide) (by simp [tagName])
          (by simp [hlist.isSimple members]) hroom) ?_
        refine (if_neg (by simp)).trans ((if_pos rfl).trans ?_)
        refine bind_eq_of_eq_some
          (tagged_record_ofFields (by decide) (by simp) (nesting_ofFields_tail hroom)) ?_
        exact bind_eq_of_eq_some (required_of_lawful hlist rfl hmembers) rfl
    | composite kind types =>
        have hname : compositeName kind ∈
            (["leaf", "object", "union", "intersection"] : List Text) := by
          cases kind <;> decide
        have hleaf : compositeName kind ≠ ("leaf" : Text) := by cases kind <;> decide
        have hobject : compositeName kind ≠ ("object" : Text) := by cases kind <;> decide
        have htypes : (encodeTypeIds types).nesting ≤ scope.inside.room :=
          (nesting_ofFields_le_iff.mp hroom).2 ("types", encodeTypeIds types) (by simp)
        refine bind_eq_of_eq_some (tagged_ofFields hname (by simp [tagName])
          (by simp [lawful_typeIds.isSimple types]) hroom) ?_
        refine (if_neg hleaf).trans ((if_neg hobject).trans ?_)
        refine bind_eq_of_eq_some
          (tagged_record_ofFields (by decide) (by simp) (nesting_ofFields_tail hroom)) ?_
        refine bind_eq_of_eq_some (required_of_lawful lawful_typeIds rfl htypes) ?_
        cases kind <;> rfl

theorem lawful_parent : Lawful encodeParent decodeParent where
  isSimple parent := by cases parent <;> exact .fields (by simp)
  reads parent scope hroom := by
    cases parent with
    | typeAlias name | variableDeclaration name | propertyAssignment name =>
        refine bind_eq_of_eq_some
          (tagged_ofFields (by decide) (by simp [tagName]) (by simp) hroom) ?_
        refine (if_neg (by simp)).trans ?_
        refine bind_eq_of_eq_some
          (tagged_record_ofFields (by decide) (by simp) (nesting_ofFields_tail hroom)) ?_
        exact bind_eq_of_eq_some (required_text rfl) rfl
    | other => exact bind_eq_of_eq_some (tagged_ofFields (by decide) (by simp) (by simp) hroom) rfl

theorem isSimple_declarationKindFields (kind : DeclarationKind) :
    ∀ entry ∈ declarationKindFields kind, entry.2.IsSimple := by
  cases kind with
  | unionType members => simp [declarationKindFields, lawful_list lawful_text |>.isSimple members]
  | typeLiteral => simp [declarationKindFields]
  | other => simp [declarationKindFields]

theorem lawful_declarationKind :
    Lawful (fun kind => .ofFields (declarationKindFields kind)) decodeDeclarationKind where
  isSimple kind := .fields (isSimple_declarationKindFields kind)
  reads kind scope hroom := by
    cases kind with
    | unionType members =>
        have hlist := lawful_list lawful_text
        have hmembers : (Json.array (members.map ofText)).nesting ≤ scope.inside.room :=
          (nesting_ofFields_le_iff.mp hroom).2 ("members", .array (members.map ofText))
            (by simp [declarationKindFields])
        refine bind_eq_of_eq_some (tagged_ofFields (by decide) (by simp [tagName])
          (by simp [hlist.isSimple members]) hroom) ?_
        refine (if_pos rfl).trans ?_
        refine bind_eq_of_eq_some
          (tagged_record_ofFields (by decide) (by simp) (nesting_ofFields_tail hroom)) ?_
        exact bind_eq_of_eq_some (required_of_lawful hlist rfl hmembers) rfl
    | typeLiteral | other =>
        exact bind_eq_of_eq_some (tagged_ofFields (by decide) (by simp) (by simp) hroom) rfl

theorem lawful_declaration : Lawful encodeDeclaration decodeDeclaration where
  isSimple declaration := .fields (by
    simp only [List.forall_mem_append, forall_mem_optionalField]
    exact ⟨isSimple_declarationKindFields _, fun parent _ => lawful_parent.isSimple parent⟩)
  reads declaration scope hroom := by
    have hparent : ∀ parent ∈ declaration.parent,
        (encodeParent parent).nesting ≤ scope.inside.room := by
      intro parent hparent
      exact (nesting_ofFields_le_iff.mp hroom).2 ("parent", encodeParent parent) (by
        simp [mem_optionalField hparent])
    have hkind := nesting_ofFields_of_subset (List.subset_append_left _ _) hroom
    rcases declaration with ⟨kind, parent⟩
    refine bind_eq_of_eq_some (joined_ofFields ?_ (isSimple_declarationKindFields kind) hroom) ?_
    · cases kind <;> simp [declarationKindFields]
    refine bind_eq_of_eq_some (optional_of_lawful lawful_parent ?_ hparent) ?_
    · cases parent <;> rfl
    exact bind_eq_of_eq_some (lawful_declarationKind.reads kind scope.hold hkind) rfl

theorem lawful_typeEntry : Lawful encodeTypeEntry decodeTypeEntry where
  isSimple entry := .fields (by
    have hdeclarations := (lawful_list lawful_declaration).isSimple
    simp only [List.forall_mem_append, forall_mem_field, forall_mem_optionalField]
    exact ⟨⟨⟨⟨.word _, .text _⟩, lawful_shape.isSimple _⟩, fun value _ => hdeclarations value⟩,
      .bool _⟩)
  reads entry scope hroom := by
    obtain ⟨-, hparts⟩ := nesting_ofFields_le_iff.mp hroom
    have hshape : (encodeShape entry.shape).nesting ≤ scope.inside.room :=
      hparts ("shape", encodeShape entry.shape) (by simp [Json.field])
    have hdeclarations : ∀ value ∈ entry.declarations,
        (encodeDeclarations value).nesting ≤ scope.inside.room := by
      intro value hvalue
      exact hparts ("declarations", encodeDeclarations value) (by
        simp [mem_optionalField hvalue])
    rcases entry with ⟨id, text, shape, declarations, projectable⟩
    refine bind_eq_of_eq_some (record_ofFields (by decide) ?_ hroom) ?_
    · cases declarations <;> simp [Json.field, optionalField]
    refine bind_eq_of_eq_some (required_of_lawful lawful_typeId rfl (Nat.zero_le _)) ?_
    refine bind_eq_of_eq_some (required_text rfl) ?_
    refine bind_eq_of_eq_some (defaulted_of_lawful lawful_shape rfl hshape) ?_
    refine bind_eq_of_eq_some
      (optional_of_lawful (lawful_list lawful_declaration) ?_ hdeclarations) ?_
    · cases declarations <;> rfl
    refine bind_eq_of_eq_some (defaulted_of_lawful lawful_bool ?_ (Nat.zero_le _)) rfl
    cases declarations <;> rfl

/-! ## Snapshots -/

theorem lawful_file : Lawful encodeFile decodeFile where
  isSimple file := .fields (by simp)
  reads file scope hroom := by
    refine bind_eq_of_eq_some (record_ofFields (by decide) (by simp) hroom) ?_
    exact bind_eq_of_eq_some (required_text rfl) (bind_eq_of_eq_some (required_text rfl) rfl)

theorem lawful_relatedTypes : Lawful encodeRelatedTypes decodeRelatedTypes where
  isSimple related := .fields (by simp [encodeTypeId, lawful_typeIds.isSimple])
  reads related scope hroom := by
    obtain ⟨-, hparts⟩ := nesting_ofFields_le_iff.mp hroom
    have hsource : (encodeTypeIds related.sourceStack).nesting ≤ scope.inside.room :=
      hparts ("sourceStack", encodeTypeIds related.sourceStack) (by simp)
    have htarget : (encodeTypeIds related.targetStack).nesting ≤ scope.inside.room :=
      hparts ("targetStack", encodeTypeIds related.targetStack) (by simp)
    refine bind_eq_of_eq_some (record_ofFields (by decide) (by simp) hroom) ?_
    refine bind_eq_of_eq_some (required_of_lawful lawful_typeId rfl (Nat.zero_le _)) ?_
    refine bind_eq_of_eq_some (required_of_lawful lawful_typeId rfl (Nat.zero_le _)) ?_
    refine bind_eq_of_eq_some (defaulted_of_lawful lawful_typeIds rfl hsource) ?_
    exact bind_eq_of_eq_some (defaulted_of_lawful lawful_typeIds rfl htarget) rfl

theorem lawful_snapshotDiagnostic :
    Lawful encodeSnapshotDiagnostic decodeSnapshotDiagnostic where
  isSimple diagnostic := .fields (by
    simp only [List.forall_mem_append, forall_mem_optionalField]
    exact ⟨isSimple_diagnosticFields _, fun related _ => lawful_relatedTypes.isSimple related⟩)
  reads diagnostic scope hroom := by
    have hrelated : ∀ related ∈ diagnostic.relatedTypes,
        (encodeRelatedTypes related).nesting ≤ scope.inside.room := by
      intro related hrelated
      exact (nesting_ofFields_le_iff.mp hroom).2 ("relatedTypes", encodeRelatedTypes related) (by
        simp [mem_optionalField hrelated])
    have hdiagnostic := nesting_ofFields_of_subset (List.subset_append_left _ _) hroom
    rcases diagnostic with ⟨diagnostic, relatedTypes⟩
    refine bind_eq_of_eq_some (joined_ofFields ?_ (isSimple_diagnosticFields diagnostic) hroom) ?_
    · rcases diagnostic with ⟨file, _ | span, code, category, message⟩ <;>
        simp [diagnosticFields, Json.field, optionalField]
    refine bind_eq_of_eq_some (optional_of_lawful lawful_relatedTypes ?_ hrelated) ?_
    · cases relatedTypes <;> rfl
    exact bind_eq_of_eq_some (lawful_diagnostic.reads diagnostic scope.hold hdiagnostic) rfl

theorem lawful_snapshot : Lawful encodeSnapshot decodeSnapshot where
  isSimple snapshot := .fields (by
    simp [(lawful_list lawful_file).isSimple snapshot.files,
      (lawful_list lawful_typeEntry).isSimple snapshot.types,
      (lawful_list lawful_snapshotDiagnostic).isSimple snapshot.diagnostics])
  reads snapshot scope hroom := by
    have hparts := (nesting_ofFields_le_iff.mp hroom).2
    simp only [List.forall_mem_cons] at hparts
    obtain ⟨hfiles, htypes, hdiagnostics, -⟩ := hparts
    refine bind_eq_of_eq_some (record_ofFields (by decide) (by simp) hroom) ?_
    refine bind_eq_of_eq_some (defaulted_of_lawful (lawful_list lawful_file) rfl hfiles) ?_
    refine bind_eq_of_eq_some (defaulted_of_lawful (lawful_list lawful_typeEntry) rfl htypes) ?_
    exact bind_eq_of_eq_some
      (defaulted_of_lawful (lawful_list lawful_snapshotDiagnostic) rfl hdiagnostics) rfl

end MismatchReport.Document
