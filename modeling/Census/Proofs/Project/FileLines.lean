import Census.Proofs.Callable.Lines
import Census.Proofs.Project.Events
import Census.Proofs.Text.RawLines
/-!
Lines of files. A file is read as text whatever its bytes are, and the lines that its scan reports are
those of its bytes.
-/

namespace Census

open Census.Disk (Host)
open Census.Script
open Census.Text (Reads BeginsOnLine breakTexts byteChar decodeLossy lineOf linesBy)
open String (utf8EncodeChar)

variable {h : Host} {file : String} {bytes : List UInt8}

/-! ## Decoding -/

/-- A text is what bytes stand for as far as they can be read: they are cut into characters and longest
malformed pieces, each of which stands for one U+FFFD. What is ASCII stays as it is, bytes that are UTF-8
throughout stand for their text, and a character is read behind whatever is malformed. Lines and their
breaks are those of the bytes. -/
structure DecodesTo (bytes : List UInt8) (text : List Char) : Prop where
  reads : Reads bytes text
  only : ∀ cs, Reads bytes cs → cs = text
  ascii : text.filter (fun c => c.toNat < 0x80) = (bytes.filter (· < 0x80)).map byteChar
  valid : ∀ cs, bytes = cs.flatMap utf8EncodeChar → text = cs
  resumes : ∀ front c back, bytes = front ++ (utf8EncodeChar c ++ back) →
    text = decodeLossy front ++ c :: decodeLossy back
  lines : linesBy id text = (linesBy byteChar bytes).map decodeLossy
  breaks : breakTexts id text = breakTexts byteChar bytes

theorem decodesTo (bytes : List UInt8) : DecodesTo bytes (decodeLossy bytes) :=
  have hreads := Text.reads_decodeLossy bytes
  { reads := hreads
    only := fun _ hcs => hcs.decodeLossy_eq.symm
    ascii := hreads.filter_ascii
    valid := by
      rintro cs rfl
      exact Text.decodeLossy_encode cs
    resumes := by
      rintro front c back rfl
      exact Text.decodeLossy_resumes front c back
    lines := hreads.lines
    breaks := hreads.breakTexts }

/-! ## Lines of a scan -/

/-- The lines that the scan of a file reports. -/
def FileScan.lines (scan : FileScan) : List UInt32 :=
  scan.records.map (·.line) ++ scan.failure.toList.map (·.line)

theorem toNat_ofNat_lineOf_le (bytes : List UInt8) (pos : Text.Pos) :
    (UInt32.ofNat (lineOf (decodeLossy bytes) pos)).toNat ≤ (linesBy byteChar bytes).length := by
  have hline := Text.lineOf_le_length_linesBy (decodeLossy bytes) pos
  rw [(Text.reads_decodeLossy bytes).lines, List.length_map] at hline
  rw [UInt32.toNat_ofNat']
  exact Nat.le_trans (Nat.mod_le _ _) hline

theorem parse_of_read_ok {text : List Char} {m : Module} (hm : Module.read text = .ok m) :
    parse file text = .ok m := by
  rw [parse, hm]

theorem parse_of_read_error {text : List Char} {fault : Fault} (hf : Module.read text = .error fault) :
    parse file text = .error (fault.inFile file text) := by
  rw [parse, hf]

/-- No line is reported behind the last one of the file, however long the file is. -/
theorem lines_ofBytes_le : ∀ line ∈ (FileScan.ofBytes file bytes).lines,
    line.toNat ≤ (linesBy byteChar bytes).length := by
  intro line hline
  cases hread : Module.read (decodeLossy bytes) with
  | ok m =>
    simp only [ofBytes_of_ok (parse_of_read_ok hread), FileScan.lines, callableRecords, List.map_map,
      Option.toList_none, List.map_nil, List.append_nil, List.mem_map] at hline
    obtain ⟨c, -, rfl⟩ := hline
    exact toNat_ofNat_lineOf_le bytes c.start
  | error fault =>
    simp only [ofBytes_of_error (parse_of_read_error hread), FileScan.lines, List.map_nil,
      Option.toList_some, List.map_cons, List.nil_append, List.mem_singleton] at hline
    subst hline
    exact toNat_ofNat_lineOf_le bytes fault.pos

/-- A line that is told by the breaks of the text is the one on which the bytes from the place on begin. -/
theorem beginsOnLine_of_isLineAt {pos : Text.Pos} {line : UInt32} (hpos : 0 < pos)
    (hle : pos ≤ (decodeLossy bytes).length) (hline : IsLineAt (decodeLossy bytes) pos line) :
    BeginsOnLine bytes pos line.toNat := by
  rw [hline.eq_breaks]
  exact Text.beginsOnLine hpos hle

/-- Of a file that can be read, whatever its bytes are, the text is what the bytes stand for, and no line
behind its last one is reported. If 32 bits suffice for the places in the text, each record has the line of
the file on which its construct begins, and so has the error that keeps the text from being a module; an
error at the end is on the line of the last character. -/
theorem scan_reports_file_lines (hread : h.read file = .ok bytes) :
    (scanFile h file).result = .ok (FileScan.ofBytes file bytes) ∧
      DecodesTo bytes (decodeLossy bytes) ∧
      (∀ line ∈ (FileScan.ofBytes file bytes).lines,
        line.toNat ≤ (linesBy byteChar bytes).length) ∧
      ((String.ofList (decodeLossy bytes)).utf8ByteSize ≤ 2 ^ 32 - 2 →
        match Module.read (decodeLossy bytes) with
        | .ok m =>
          FileScan.ofBytes file bytes = ⟨callableRecords file (decodeLossy bytes) m, none⟩ ∧
            ∀ r ∈ callableRecords file (decodeLossy bytes) m,
              ∃ p ∈ m.places, p.callable?.map (·.record file (decodeLossy bytes)) = some r ∧
                BeginsOnLine bytes p.node.start r.line.toNat
        | .error fault =>
          FileScan.ofBytes file bytes = ⟨[], some (fault.inFile file (decodeLossy bytes))⟩ ∧
            BeginsOnLine bytes (max fault.pos 1)
              (fault.inFile file (decodeLossy bytes)).line.toNat) := by
  refine ⟨scanFile_eq_ok.mpr ⟨bytes, hread, rfl⟩, decodesTo bytes, lines_ofBytes_le, fun hsize => ?_⟩
  have hwithin : Within (decodeLossy bytes).length (Module.read (decodeLossy bytes)) :=
    Module.read_within _
  cases hm : Module.read (decodeLossy bytes) with
  | ok m =>
    rw [hm] at hwithin
    refine ⟨ofBytes_of_ok (parse_of_read_ok hm), fun r hr => ?_⟩
    obtain ⟨p, hp, hrecord, hpos, hle, -, hline⟩ := record_line hsize (within_ok.mp hwithin) hr
    exact ⟨p, hp, hrecord, beginsOnLine_of_isLineAt hpos hle hline⟩
  | error fault =>
    obtain ⟨hle, -, hline⟩ := @fault_line file _ fault hsize hm
    have hne : decodeLossy bytes ≠ [] := by
      intro hnil
      rw [hnil, Module.read_nil] at hm
      cases hm
    have hmax : max fault.pos 1 ≤ (decodeLossy bytes).length :=
      Nat.max_le.mpr ⟨hle, List.length_pos_of_ne_nil hne⟩
    exact ⟨ofBytes_of_error (parse_of_read_error hm),
      beginsOnLine_of_isLineAt (Nat.le_max_right _ _) hmax hline⟩

/-- Comments in another encoding, with first bytes of characters in front of each line break and at the end
of the file. -/
def sampleLatin : List UInt8 :=
  Text.bytes "// caf" ++ [0xE9] ++ Text.bytes "\r\n// " ++ [0xE2, 0x82] ++ Text.bytes "\n/* " ++
    [0xF0, 0x9F] ++ Text.bytes "\r*/ function ok() \x7b\x7d //" ++ [0xC3]

theorem scan_reports_file_lines_sampleLatin :
    let host := (Disk.Node.directory [("latin.js", .file sampleLatin)]).host
    let text := "// caf\ufffd\r\n// \ufffd\n/* \ufffd\r*/ function ok() \x7b\x7d //\ufffd".toList
    host.read "/latin.js" = .ok sampleLatin ∧ (linesBy byteChar sampleLatin).length = 4 ∧
      (scanFile host "/latin.js").result =
        .ok ⟨[⟨"ok", "/latin.js", 4, .functionDeclaration⟩], none⟩ ∧
      DecodesTo sampleLatin text ∧ ∃ pos, BeginsOnLine sampleLatin pos 4 := by
  have hread : (Disk.Node.directory [("latin.js", .file sampleLatin)]).host.read "/latin.js" =
      .ok sampleLatin := by
    decide +kernel
  have htext : decodeLossy sampleLatin =
      "// caf\ufffd\r\n// \ufffd\n/* \ufffd\r*/ function ok() \x7b\x7d //\ufffd".toList := by
    decide +kernel
  have hscan : FileScan.ofBytes "/latin.js" sampleLatin =
      ⟨[⟨"ok", "/latin.js", 4, .functionDeclaration⟩], none⟩ := by
    decide +kernel
  obtain ⟨hresult, hdecodes, -, hlines⟩ := scan_reports_file_lines hread
  have hplaces := hlines (by decide +kernel)
  refine ⟨hread, by decide +kernel, hscan ▸ hresult, htext ▸ hdecodes, ?_⟩
  cases hm : Module.read (decodeLossy sampleLatin) with
  | ok m =>
    rw [hm] at hplaces
    obtain ⟨hrecords, hplaced⟩ := hplaces
    rw [hscan, FileScan.mk.injEq] at hrecords
    obtain ⟨p, -, -, hline⟩ := hplaced _ (hrecords.1 ▸ List.mem_singleton_self _)
    exact ⟨p.node.start, hline⟩
  | error fault =>
    rw [hm, hscan] at hplaces
    cases hplaces.1

end Census
