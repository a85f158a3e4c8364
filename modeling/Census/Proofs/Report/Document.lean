import Census.Proofs.Json.Reading
import Census.Report.Document
/-!
The report as a JSON document can be read back. It is a text of the JSON grammar whatever stands in the
records, and its value has every record with all its parts and in its place.
-/

namespace Census.Report

open Census.Json

/-! ## Values of records -/

def recordValue (r : CallableRecord) : Value := .object [
  ("file", .string r.file), ("kind", .string r.kind.text),
  ("line", .number (.natural r.line.toNat)), ("name", .string r.name)]

def textOf? : Value → Option String
  | .string s => some s
  | _ => none

def lineOf? : Value → Option UInt32
  | .number (.natural n) => if n < UInt32.size then some (.ofNat n) else none
  | _ => none

/-- The record that an object describes. -/
def recordOf? (v : Value) : Option CallableRecord := do
  let name ← v.member? "name" >>= textOf?
  let file ← v.member? "file" >>= textOf?
  let line ← v.member? "line" >>= lineOf?
  let kind ← v.member? "kind" >>= textOf? >>= CallableKind.ofText?
  return ⟨name, file, line, kind⟩

def recordsOf? : Value → Option (List CallableRecord)
  | .array items => items.mapM recordOf?
  | _ => none

theorem ofText_text (k : CallableKind) : CallableKind.ofText? k.text = some k := by
  obtain _ | _ | _ | role := k
  case classMember => cases role <;> decide
  all_goals decide

theorem lineOf_number (line : UInt32) : lineOf? (.number (.natural line.toNat)) = some line := by
  simp [lineOf?, line.toNat_lt]

theorem recordOf_value (r : CallableRecord) : recordOf? (recordValue r) = some r := by
  simp [recordOf?, recordValue, Value.member?, List.lookup_cons, textOf?, lineOf_number, ofText_text]

theorem recordsOf_values (rs : List CallableRecord) :
    recordsOf? (.array (rs.map recordValue)) = some rs := by
  induction rs with
  | nil => rfl
  | cons r rs ih =>
    simp only [recordsOf?, List.map_cons, List.mapM_cons, recordOf_value] at ih ⊢
    simp [ih]

/-! ## Texts of records -/

theorem quotedChar_text (c : Char) : CharText c (quotedChar c) := by
  unfold quotedChar
  split
  case h_8 =>
    split
    case isTrue h =>
      have hhigh : IsHexDigit (c.toNat / 16) (hexDigit (c.toNat / 16)) := ⟨by omega, .inl rfl⟩
      have hlow : IsHexDigit (c.toNat % 16) (hexDigit (c.toNat % 16)) := ⟨by omega, .inl rfl⟩
      have hzero : IsHexDigit 0 '0' := ⟨by omega, .inl rfl⟩
      have hnumber : c.toNat = ((0 * 16 + 0) * 16 + c.toNat / 16) * 16 + c.toNat % 16 := by omega
      have hhex := HexText.digits hzero hzero hhigh hlow
      rw [← hnumber] at hhex
      exact .numbered hhex
    case isFalse hq hb _ _ _ _ _ h => exact .itself hq hb (by omega)
  all_goals exact .short (by decide)

theorem quote_text (s : String) : StringText s (quote s.toList) := by
  refine .quoted ?_
  induction s.toList with
  | nil => exact .nil
  | cons c cs ih => exact .cons (quotedChar_text c) ih

section

variable {n : Nat} {b t : List Char} {v : Value}

/-- A member on a line of its own, with blanks after it. -/
theorem memberText_text (key : String) (hb : Blanks b) (hv : ValueText n v t) :
    MemberText n (key, v) ('\n' :: memberText key t ++ b) := by
  have hindent : Blanks "\n    ".toList := by decide
  have hspace : Blanks [' '] := by decide
  have hmember := MemberText.colon hindent (quote_text key) blanks_nil (.spaced hspace hv hb)
  have hindentText : "\n    ".toList = '\n' :: "    ".toList := rfl
  unfold memberText
  simpa only [hindentText, List.append_nil, List.append_assoc, List.cons_append, List.nil_append]
    using hmember

theorem keptMembers_record (name file line kind : Value) :
    keptMembers [("name", name), ("file", file), ("line", line), ("kind", kind)] =
      [("file", file), ("kind", kind), ("line", line), ("name", name)] := by
  have hfile : "file" < "name" := by decide
  have hline : ¬ "line" < "file" ∧ "line" ≠ "file" ∧ "line" < "name" := by decide
  have hkind : ¬ "kind" < "file" ∧ "kind" ≠ "file" ∧ "kind" < "line" := by decide
  simp only [keptMembers, List.foldl_cons, List.foldl_nil, insertMember, beq_iff_eq, if_pos hfile,
    if_neg hline.1, if_neg hline.2.1, if_pos hline.2.2, if_neg hkind.1, if_neg hkind.2.1,
    if_pos hkind.2.2]

/-- A record on lines of its own, with blanks after it. -/
theorem recordText_text (r : CallableRecord) (hb : Blanks b) :
    ElementText (n + 1) (recordValue r) ('\n' :: recordText r ++ b) := by
  have hline : r.line.toNat < UInt64.size := Nat.lt_trans r.line.toNat_lt (by decide)
  have hname := memberText_text (n := n) "name" blanks_nil (.string (quote_text r.name))
  have hfile := memberText_text (n := n) "file" blanks_nil (.string (quote_text r.file))
  have hnumber := memberText_text (n := n) "line" blanks_nil (.natural hline)
  have hkind := memberText_text (n := n) "kind" (b := "\n  ".toList) (by decide)
    (.string (quote_text r.kind.text))
  have hobject := ValueText.object (.more hname (.more hfile (.more hnumber (.last hkind))))
  rw [keptMembers_record] at hobject
  have hindent : Blanks "\n  ".toList := by decide
  have helement := ElementText.spaced hindent hobject hb
  -- the separators taken apart into blanks and marks, as the grammar has them
  have hopen : "  \x7b\n".toList = [' ', ' ', '\x7b', '\n'] := rfl
  have hclose : "\n  \x7d".toList = "\n  ".toList ++ ['\x7d'] := rfl
  have hstart : "\n  ".toList = ['\n', ' ', ' '] := rfl
  have hcomma : ",\n".toList = [',', '\n'] := rfl
  unfold recordText recordValue
  simpa only [hopen, hclose, hstart, hcomma, List.append_nil, List.append_assoc, List.cons_append,
    List.nil_append] using helement

theorem recordsText_text (rs : List CallableRecord) (h : rs ≠ []) :
    ItemsText (n + 1) (rs.map recordValue)
      ('\n' :: ",\n".toList.intercalate (rs.map recordText) ++ ['\n']) := by
  induction rs with
  | nil => contradiction
  | cons r rs ih =>
    -- a record is followed by a comma unless it is the last
    cases rs with
    | nil =>
      have hlast : Blanks ['\n'] := by decide
      simpa [List.intercalate] using ItemsText.last (recordText_text (n := n) r hlast)
    | cons r' rs =>
      have hitems :=
        ItemsText.more (recordText_text (n := n) r blanks_nil) (ih (List.cons_ne_nil r' rs))
      have hcomma : ",\n".toList = [',', '\n'] := rfl
      simpa [List.intercalate, hcomma] using hitems

theorem document_text (records : List CallableRecord) :
    IsDocument (.array (records.map recordValue)) (document records).toList := by
  cases records with
  | nil => exact .spaced blanks_nil (.emptyArray blanks_nil) blanks_nil
  | cons r rs =>
    have hitems := recordsText_text (n := 125) (r :: rs) (List.cons_ne_nil r rs)
    have hopen : "[\n".toList = ['[', '\n'] := rfl
    have hclose : "\n]".toList = ['\n', ']'] := rfl
    have helement := ElementText.spaced blanks_nil (.array hitems) blanks_nil
    simpa [IsDocument, depthLimit, document, documentText, hopen, hclose] using helement

end

theorem document_injective {records others : List CallableRecord}
    (h : document records = document others) : records = others := by
  have hvalues : Value.array (records.map recordValue) = .array (others.map recordValue) :=
    (document_text records).unique (h ▸ document_text others)
  have hrecords := congrArg recordsOf? hvalues
  rw [recordsOf_values, recordsOf_values] at hrecords
  exact Option.some.inj hrecords

/-- The document of a report is a JSON text with one value, from which the reader gets the records in
their order; so reports with the same document are the same, and only the empty one is without records. -/
theorem document_round_trip (records : List CallableRecord) :
    (∃ value, IsDocument value (document records).toList ∧
      (∀ other, IsDocument other (document records).toList → other = value) ∧
      Value.read (document records).toList = .ok value ∧ recordsOf? value = some records) ∧
    (∀ others, document others = document records → others = records) ∧
    (document records = "[]" ↔ records = []) := by
  have htext := document_text records
  have hempty : "[]" = document [] := rfl
  refine ⟨⟨_, htext, fun _ h => h.unique htext, htext.read, recordsOf_values records⟩,
    fun _ h => document_injective h, fun h => document_injective (h.trans hempty), ?_⟩
  rintro rfl
  rfl

example : ((Value.read (document [⟨"a\"\\\x01", "\n\u2028", 7, .arrowFunction⟩]).toList).toOption.bind
    recordsOf?) = some [⟨"a\"\\\x01", "\n\u2028", 7, .arrowFunction⟩] := by
  decide +kernel

end Census.Report
