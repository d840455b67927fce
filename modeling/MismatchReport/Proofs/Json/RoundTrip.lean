import MismatchReport.Json.Reader
import MismatchReport.Json.Writer
import MismatchReport.Proofs.Json.Number
import MismatchReport.Proofs.Text.Joining

/-!
# Written values read back

The values that documents are made of, texts and 32-bit numbers in arrays and in objects, and the
reader on their compact form.
-/

namespace MismatchReport.Json

open Number (Ends)

inductive IsSimple : Json → Prop
  | bool (value : Bool) : IsSimple (.bool value)
  | word (value : UInt32) : IsSimple (.ofWord value)
  | text (value : Text) : IsSimple (.ofText value)
  | array {items : List Json} (hitems : ∀ item ∈ items, IsSimple item) : IsSimple (.array items)
  | fields {fields : List (Text × Json)} (hfields : ∀ field ∈ fields, IsSimple field.2) :
      IsSimple (.ofFields fields)

theorem hexUnit?_escapeControl :
    ∀ code < 32, hexUnit? ['0', '0', Nat.digitChar (code / 16), Nat.digitChar (code % 16)] =
      some code := by
  decide

theorem readPieces?_escapeControl {char : Char} (hchar : char < ' ') (rest : Text) :
    readPieces? (escapeControl char ++ rest) =
      (readPieces? rest).map fun (pieces, rest) => (.char char :: pieces, rest) := by
  have hcode : char.toNat < 32 := hchar
  have hpiece : Piece.ofUnit char.toNat = .char char := by
    have hhigh : isHighHalf char.toNat = false := by
      simp [isHighHalf]
      omega
    have hlow : isLowHalf char.toNat = false := by
      simp [isLowHalf]
      omega
    simp [Piece.ofUnit, hhigh, hlow]
  simp only [escapeControl, List.cons_append, List.nil_append, readPieces?,
    hexUnit?_escapeControl _ hcode]
  cases readPieces? rest with
  | none => rfl
  | some read => simp [hpiece]

theorem readPieces?_shortEscape {escape char : Char} (hescape : shortEscape? escape = some char)
    (rest : Text) :
    readPieces? ('\\' :: escape :: rest) =
      (readPieces? rest).map fun (pieces, rest) => (.char char :: pieces, rest) := by
  have hunicode : escape ≠ 'u' := by
    rintro rfl
    simp [shortEscape?] at hescape
  rw [readPieces?]
  · rw [hescape]
    cases readPieces? rest <;> rfl
  · rintro _ _ _ _ _ rfl
    exact absurd rfl hunicode

theorem readPieces?_escapeChar (char : Char) (rest : Text) :
    readPieces? (escapeChar char ++ rest) =
      (readPieces? rest).map fun (pieces, rest) => (.char char :: pieces, rest) := by
  unfold escapeChar
  split_ifs with hquote hbackslash hbackspace hfeed hnewline hreturn htab hcontrol
  · exact readPieces?_shortEscape (by rw [hquote]; rfl) rest
  · exact readPieces?_shortEscape (by rw [hbackslash]; rfl) rest
  · exact readPieces?_shortEscape (by rw [hbackspace]; rfl) rest
  · exact readPieces?_shortEscape (by rw [hfeed]; rfl) rest
  · exact readPieces?_shortEscape (by rw [hnewline]; rfl) rest
  · exact readPieces?_shortEscape (by rw [hreturn]; rfl) rest
  · exact readPieces?_shortEscape (by rw [htab]; rfl) rest
  · exact readPieces?_escapeControl hcontrol rest
  · rw [List.singleton_append, readPieces?]
    · rw [if_neg (by simp [hcontrol, hbackslash])]
      cases readPieces? rest <;> rfl
    all_goals simp_all

theorem readPieces?_escaped (text rest : Text) :
    readPieces? (text.flatMap escapeChar ++ '"' :: rest) = some (text.map .char, rest) := by
  induction text with
  | nil => rfl
  | cons char text ih =>
      rw [List.flatMap_cons, List.append_assoc, readPieces?_escapeChar, ih]
      rfl

theorem joinPieces?_map_char (text : Text) : joinPieces? (text.map .char) = some text := by
  induction text with
  | nil => rfl
  | cons char text ih => simp [joinPieces?, ih]

theorem readString?_escaped (text rest : Text) :
    readString? (text.flatMap escapeChar ++ '"' :: rest) = some (some text, rest) := by
  rw [readString?, readPieces?_escaped]
  simp [joinPieces?_map_char]

/-! ## The compact form -/

theorem writeItems_eq_map (items : List Json) : writeItems items = items.map write := by
  induction items with
  | nil => rfl
  | cons item items ih => rw [writeItems, ih, List.map_cons]

theorem writeEntries_eq_map (entries : List (Option Text × Json)) :
    writeEntries entries =
      entries.map fun (name, value) => writeString name ++ ':' :: write value := by
  induction entries with
  | nil => rfl
  | cons entry entries ih => rw [writeEntries, ih, List.map_cons]

theorem write_ofText (text : Text) :
    write (.ofText text) = '"' :: text.flatMap escapeChar ++ ['"'] := rfl

theorem write_ofWord (word : UInt32) : write (.ofWord word) = Text.ofNat word.toNat :=
  Number.write_ofNat _

def writeField (field : Text × Json) : Text :=
  '"' :: field.1.flatMap escapeChar ++ '"' :: ':' :: write field.2

theorem write_array (items : List Json) :
    write (.array items) = '[' :: Text.joinWith [','] (items.map write) ++ [']'] := by
  rw [write, writeItems_eq_map]

theorem write_ofFields (fields : List (Text × Json)) :
    write (.ofFields fields) =
      '\x7b' :: Text.joinWith [','] (fields.map writeField) ++ ['\x7d'] := by
  rw [ofFields, write, writeEntries_eq_map, List.map_map]
  congr 3
  apply List.map_congr_left
  intro field _
  simp [writeField, writeString]

theorem IsSimple.write_eq_cons {json : Json} (hjson : json.IsSimple) :
    ∃ char after, write json = char :: after ∧ isBlank char = false ∧ char ≠ ']' := by
  cases hjson with
  | bool value =>
      cases value
      · exact ⟨'f', _, rfl, by decide, by decide⟩
      · exact ⟨'t', _, rfl, by decide, by decide⟩
  | word value =>
      cases hdigits : Text.ofNat value.toNat with
      | nil => exact absurd hdigits (Text.ofNat_ne_nil _)
      | cons digit digits =>
          have hdigit : digit.isDigit :=
            Text.isDigit_of_mem_ofNat (hdigits ▸ List.mem_cons_self)
          refine ⟨digit, digits, by rw [write_ofWord, hdigits], ?_, ?_⟩
          · simp only [isBlank, Bool.or_eq_false_iff, beq_eq_false_iff_ne]
            refine ⟨⟨⟨?_, ?_⟩, ?_⟩, ?_⟩ <;> rintro rfl <;> exact absurd hdigit (by decide)
          · rintro rfl
            exact absurd hdigit (by decide)
  | text value => exact ⟨'"', _, rfl, by decide, by decide⟩
  | array hitems => exact ⟨'[', _, rfl, by decide, by decide⟩
  | fields hfields => exact ⟨'\x7b', _, rfl, by decide, by decide⟩

theorem skipBlanks_cons {char : Char} (hchar : isBlank char = false) (rest : Text) :
    skipBlanks (char :: rest) = char :: rest := by
  simp [skipBlanks, hchar]

theorem skipBlanks_write_append {json : Json} (hjson : json.IsSimple) (rest : Text) :
    skipBlanks (write json ++ rest) = write json ++ rest := by
  obtain ⟨char, after, hwrite, hblank, -⟩ := hjson.write_eq_cons
  rw [hwrite, List.cons_append, skipBlanks_cons hblank]

theorem ends_cons {char : Char} (hchar : char = ',' ∨ char = ']' ∨ char = '\x7d') (rest : Text) :
    Ends (char :: rest) := by
  intro first hfirst
  obtain rfl : char = first := by simpa using hfirst
  exact hchar

/-! ## Values -/

/-- The reader gives back the value and what stands behind it, given more steps than characters. -/
def ReadsBack (json : Json) : Prop :=
  ∀ rest steps, Ends rest → (write json).length < steps →
    readValue? steps (write json ++ rest) = some (json, rest)

theorem readItems?_last {steps : Nat} {text rest : Text} {item : Json}
    (hitem : readValue? steps (skipBlanks text) = some (item, ']' :: rest)) :
    readItems? (steps + 1) text = some ([item], rest) := by
  rw [readItems?, hitem]
  rfl

theorem readItems?_next {steps : Nat} {text more rest : Text} {item : Json} {items : List Json}
    (hitem : readValue? steps (skipBlanks text) = some (item, ',' :: more))
    (hitems : readItems? steps more = some (items, rest)) :
    readItems? (steps + 1) text = some (item :: items, rest) := by
  rw [readItems?, hitem]
  change (readItems? steps more >>= fun read => some (item :: read.1, read.2)) = _
  rw [hitems]
  rfl

theorem readItems?_written {item : Json} {items : List Json} (rest : Text) (steps : Nat)
    (hsimple : ∀ value ∈ item :: items, value.IsSimple)
    (hread : ∀ value ∈ item :: items, value.ReadsBack)
    (hsteps : (Text.joinWith [','] ((item :: items).map write)).length + 1 < steps) :
    readItems? steps (Text.joinWith [','] ((item :: items).map write) ++ ']' :: rest) =
      some (item :: items, rest) := by
  obtain ⟨steps, rfl⟩ : ∃ below, steps = below + 1 := ⟨steps - 1, by omega⟩
  have hskip := skipBlanks_write_append (hsimple item (by simp))
  induction items generalizing item steps with
  | nil =>
      simp only [List.map_cons, List.map_nil, Text.joinWith_singleton] at hsteps ⊢
      have hitem := hread item (by simp) (']' :: rest) steps (ends_cons (by simp) _) (by omega)
      exact readItems?_last ((hskip _).symm ▸ hitem)
  | cons next items ih =>
      simp only [List.map_cons, Text.joinWith_cons_cons, List.length_append, List.length_singleton]
        at hsteps
      obtain ⟨steps, rfl⟩ : ∃ below, steps = below + 1 := ⟨steps - 1, by omega⟩
      have hitem := hread item (by simp)
        (',' :: (Text.joinWith [','] ((next :: items).map write) ++ ']' :: rest)) (steps + 1)
        (ends_cons (by simp) _) (by omega)
      have hitems := ih (fun value hvalue => hsimple value (List.mem_cons_of_mem _ hvalue))
        (fun value hvalue => hread value (List.mem_cons_of_mem _ hvalue)) steps
        (by simp only [List.map_cons]; omega)
        (skipBlanks_write_append (hsimple next (by simp)))
      have htext : Text.joinWith [','] ((item :: next :: items).map write) ++ ']' :: rest =
          write item ++
            ',' :: (Text.joinWith [','] ((next :: items).map write) ++ ']' :: rest) := by
        simp [Text.joinWith_cons_cons]
      rw [htext]
      exact readItems?_next ((hskip _).symm ▸ hitem) hitems

theorem readEntries?_writeField {steps : Nat} {field : Text × Json} {tail : Text}
    (hsimple : field.2.IsSimple)
    (hvalue : readValue? steps (write field.2 ++ tail) = some (field.2, tail)) :
    readEntries? (steps + 1) (writeField field ++ tail) =
      match skipBlanks tail with
      | '\x7d' :: rest => some ([(some field.1, field.2)], rest)
      | ',' :: rest => do
          let (entries, rest) ← readEntries? steps rest
          return ((some field.1, field.2) :: entries, rest)
      | _ => none := by
  have htext : writeField field ++ tail =
      '"' :: (field.1.flatMap escapeChar ++ '"' :: (':' :: (write field.2 ++ tail))) := by
    simp [writeField]
  rw [htext, readEntries?, skipBlanks_cons (by decide)]
  simp only [readString?_escaped, Option.bind_eq_bind, Option.bind_some]
  rw [skipBlanks_cons (by decide)]
  simp only [skipBlanks_write_append hsimple, hvalue, Option.bind_some]
  rfl

theorem readEntries?_written {field : Text × Json} {fields : List (Text × Json)} (rest : Text)
    (steps : Nat) (hsimple : ∀ entry ∈ field :: fields, entry.2.IsSimple)
    (hread : ∀ entry ∈ field :: fields, entry.2.ReadsBack)
    (hsteps : (Text.joinWith [','] ((field :: fields).map writeField)).length + 1 < steps) :
    readEntries? steps
        (Text.joinWith [','] ((field :: fields).map writeField) ++ '\x7d' :: rest) =
      some ((field :: fields).map fun (name, value) => (some name, value), rest) := by
  obtain ⟨steps, rfl⟩ : ∃ below, steps = below + 1 := ⟨steps - 1, by omega⟩
  have hlength : (write field.2).length ≤ (writeField field).length := by
    simp [writeField]
    omega
  induction fields generalizing field steps with
  | nil =>
      simp only [List.map_cons, List.map_nil, Text.joinWith_singleton] at hsteps ⊢
      have hvalue := hread field (by simp) ('\x7d' :: rest) steps (ends_cons (by simp) _)
        (by omega)
      rw [readEntries?_writeField (hsimple field (by simp)) hvalue, skipBlanks_cons (by decide)]
      rfl
  | cons next fields ih =>
      simp only [List.map_cons, Text.joinWith_cons_cons, List.length_append, List.length_singleton]
        at hsteps
      obtain ⟨steps, rfl⟩ : ∃ below, steps = below + 1 := ⟨steps - 1, by omega⟩
      have hvalue := hread field (by simp)
        (',' :: (Text.joinWith [','] ((next :: fields).map writeField) ++ '\x7d' :: rest))
        (steps + 1) (ends_cons (by simp) _) (by omega)
      have hentries := ih (fun entry hentry => hsimple entry (List.mem_cons_of_mem _ hentry))
        (fun entry hentry => hread entry (List.mem_cons_of_mem _ hentry)) steps
        (by simp only [List.map_cons]; omega)
        (by simp [writeField]; omega)
      have htext : Text.joinWith [','] ((field :: next :: fields).map writeField) ++
            '\x7d' :: rest =
          writeField field ++
            ',' :: (Text.joinWith [','] ((next :: fields).map writeField) ++ '\x7d' :: rest) := by
        simp [Text.joinWith_cons_cons]
      rw [htext, readEntries?_writeField (hsimple field (by simp)) hvalue,
        skipBlanks_cons (by decide)]
      change (readEntries? (steps + 1) _ >>= fun (entries, rest) =>
        some ((some field.1, field.2) :: entries, rest)) = _
      rw [hentries]
      rfl

theorem readValue?_ofNat_append (steps value : Nat) {rest : Text} (hrest : Ends rest) :
    readValue? (steps + 1) (Text.ofNat value ++ rest) = some (.ofNat value, rest) := by
  have hread := Number.read?_ofNat_append value hrest
  cases hdigits : Text.ofNat value with
  | nil => exact absurd hdigits (Text.ofNat_ne_nil value)
  | cons digit digits =>
      have hdigit : digit.isDigit :=
        Text.isDigit_of_mem_ofNat (hdigits ▸ List.mem_cons_self)
      rw [hdigits, List.cons_append] at hread
      rw [List.cons_append, readValue?]
      · rw [hread]
        rfl
      all_goals
        intro after heq
        obtain ⟨rfl, -⟩ := List.cons.inj heq
        exact absurd hdigit (by decide)

theorem readValue?_openBracket {steps : Nat} {text : Text}
    (hopen : ∀ rest, skipBlanks text ≠ ']' :: rest) :
    readValue? (steps + 1) ('[' :: text) =
      (readItems? steps (skipBlanks text)).map fun (items, rest) => (.array items, rest) := by
  rw [readValue?]
  split
  · exact absurd (by assumption) (hopen _)
  · rfl

theorem readValue?_openBrace {steps : Nat} {text : Text}
    (hopen : ∀ rest, skipBlanks text ≠ '\x7d' :: rest) :
    readValue? (steps + 1) ('\x7b' :: text) =
      (readEntries? steps (skipBlanks text)).map fun (entries, rest) =>
        (.object entries, rest) := by
  rw [readValue?]
  split
  · exact absurd (by assumption) (hopen _)
  · rfl

theorem readValue?_array_cons {item : Json} {items : List Json} (rest : Text) (steps : Nat)
    (hsimple : ∀ value ∈ item :: items, value.IsSimple)
    (hread : ∀ value ∈ item :: items, value.ReadsBack)
    (hsteps : (write (.array (item :: items))).length < steps + 1) :
    readValue? (steps + 1) (write (.array (item :: items)) ++ rest) =
      some (.array (item :: items), rest) := by
  rw [write_array] at hsteps ⊢
  obtain ⟨char, after, hwrite, hblank, hne⟩ := (hsimple item List.mem_cons_self).write_eq_cons
  obtain ⟨more, hfirst⟩ : ∃ more,
      Text.joinWith [','] ((item :: items).map write) = char :: more := by
    rw [List.map_cons, Text.joinWith_cons, hwrite]
    exact ⟨_, rfl⟩
  have hskip : skipBlanks (Text.joinWith [','] ((item :: items).map write) ++ ']' :: rest) =
      Text.joinWith [','] ((item :: items).map write) ++ ']' :: rest := by
    rw [hfirst, List.cons_append, skipBlanks_cons hblank]
  have hitems := readItems?_written rest steps hsimple hread (by
    simp only [List.length_append, List.length_cons, List.length_nil] at hsteps ⊢
    omega)
  rw [List.append_assoc, List.cons_append, List.singleton_append, readValue?_openBracket, hskip,
    hitems]
  · rfl
  · intro rest' heq
    rw [hskip, hfirst] at heq
    exact hne (List.cons.inj heq).1

theorem readValue?_fields_cons {field : Text × Json} {fields : List (Text × Json)} (rest : Text)
    (steps : Nat) (hsimple : ∀ entry ∈ field :: fields, entry.2.IsSimple)
    (hread : ∀ entry ∈ field :: fields, entry.2.ReadsBack)
    (hsteps : (write (.ofFields (field :: fields))).length < steps + 1) :
    readValue? (steps + 1) (write (.ofFields (field :: fields)) ++ rest) =
      some (.ofFields (field :: fields), rest) := by
  rw [write_ofFields] at hsteps ⊢
  obtain ⟨after, hfirst⟩ : ∃ after,
      Text.joinWith [','] ((field :: fields).map writeField) = '"' :: after := by
    rw [List.map_cons, Text.joinWith_cons]
    exact ⟨_, rfl⟩
  have hskip : skipBlanks
      (Text.joinWith [','] ((field :: fields).map writeField) ++ '\x7d' :: rest) =
        Text.joinWith [','] ((field :: fields).map writeField) ++ '\x7d' :: rest := by
    rw [hfirst, List.cons_append, skipBlanks_cons (by decide)]
  have hentries := readEntries?_written rest steps hsimple hread (by
    simp only [List.length_append, List.length_cons, List.length_nil] at hsteps ⊢
    omega)
  rw [List.append_assoc, List.cons_append, List.singleton_append, readValue?_openBrace, hskip,
    hentries]
  · rfl
  · intro rest' heq
    rw [hskip, hfirst] at heq
    exact absurd (List.cons.inj heq).1 (by decide)

theorem IsSimple.readsBack {json : Json} (hjson : json.IsSimple) : json.ReadsBack := by
  intro rest steps hrest hsteps
  obtain ⟨steps, rfl⟩ : ∃ below, steps = below + 1 := ⟨steps - 1, by omega⟩
  induction hjson generalizing rest steps with
  | bool value => cases value <;> simp [write, readValue?]
  | word value =>
      rw [write_ofWord]
      exact readValue?_ofNat_append steps _ hrest
  | text value =>
      rw [write_ofText, List.append_assoc, List.cons_append, readValue?]
      simp [readString?_escaped, ofText]
  | @array items hitems ih =>
      cases items with
      | nil =>
          rw [write_array]
          simp [Text.joinWith, readValue?, skipBlanks_cons (by decide : isBlank ']' = false)]
      | cons item items =>
          refine readValue?_array_cons rest steps hitems ?_ hsteps
          intro value hvalue rest steps hrest hsteps
          obtain ⟨steps, rfl⟩ : ∃ below, steps = below + 1 := ⟨steps - 1, by omega⟩
          exact ih value hvalue rest hrest steps hsteps
  | @fields fields hfields ih =>
      cases fields with
      | nil =>
          rw [write_ofFields]
          simp [Text.joinWith, readValue?, ofFields,
            skipBlanks_cons (by decide : isBlank '\x7d' = false)]
      | cons field fields =>
          refine readValue?_fields_cons rest steps hfields ?_ hsteps
          intro entry hentry rest steps hrest hsteps
          obtain ⟨steps, rfl⟩ : ∃ below, steps = below + 1 := ⟨steps - 1, by omega⟩
          exact ih entry hentry rest hrest steps hsteps

theorem parse?_write {json : Json} (hjson : json.IsSimple) : parse? (write json) = some json := by
  have hskip := skipBlanks_write_append hjson []
  have hread := hjson.readsBack [] (2 * (write json).length + 1) (by simp [Number.Ends]) (by omega)
  rw [List.append_nil] at hskip hread
  rw [parse?, hskip, hread]
  rfl

end MismatchReport.Json
