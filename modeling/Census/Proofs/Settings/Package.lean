import Census.Disk.Volume
import Census.Proofs.Json.Embedding
import Census.Proofs.Json.Soundness
import Census.Proofs.Settings.Decoding
import Census.Proofs.Text.ByteOrder
import Census.Settings.Load
/-!
One text of settings, in a file of its own and as a member of a package file. Whichever file it is read from,
the settings are the same, or there are none.
-/

namespace Census.Settings

open Census.Disk (Host)
open Census.Json (Blanks ElementForm Embeds EmbedsLead EmbedsMembers MemberLead MembersForm StartsKey
  StringText Token Value blanks_nil depthLimit expectEnd headToken keptMembers lookup_keptMembers
  mark_spells marks numberForm_toString readValue readValue_object readWritten readWritten_blanks
  tokens tokens_blanks tokens_mark)

variable {n : Nat} {front back key lead t text : List Char} {v : Value}

/-! ## Package files -/

/-- The members of an object around the value of the only one for this program. -/
inductive MembersAround : List Char → List Char → Prop where
  | last {key lead : List Char} : StringText "callmap" key → MemberLead key lead →
      MembersAround lead []
  | before {key lead t : List Char} {keys : List (List Char)} : StringText "callmap" key →
      MemberLead key lead → MembersForm keys t → (∀ key ∈ keys, ¬ StringText "callmap" key) →
      MembersAround lead (',' :: t)
  | behind {key lead t front back : List Char} : ¬ StringText "callmap" key → MemberLead key lead →
      ElementForm t → MembersAround front back → MembersAround (lead ++ t ++ ',' :: front) back

/-- The text of a package file around the settings in it. -/
inductive PackageAround : List Char → List Char → Prop where
  | object {a b front back : List Char} : Blanks a → MembersAround front back → Blanks b →
      PackageAround (a ++ '\x7b' :: front) (back ++ '\x7d' :: b)

/-- If the value of a text is an object, no two of its keys are one string. -/
inductive DistinctKeys : List Char → Prop where
  | other {text : List Char} : (∀ a t, Blanks a → text ≠ a ++ '\x7b' :: t) → DistinctKeys text
  | emptyObject {a t b : List Char} : Blanks a → Blanks t → Blanks b →
      DistinctKeys (a ++ '\x7b' :: t ++ '\x7d' :: b)
  | object {a t b : List Char} {keys : List (List Char)} : Blanks a → MembersForm keys t → Blanks b →
      keys.Pairwise (fun k k' => ¬ ∃ s, StringText s k ∧ StringText s k') →
      DistinctKeys (a ++ '\x7b' :: t ++ '\x7d' :: b)

/-! ## Reading a package file -/

/-- What is read of the members around a value, with the value as it stands in a text. -/
structure EmbedsAround (n : Nat) (front back : List Char)
    (o : Option (List (String × Value) × List (String × Value))) : Prop where
  other : ∀ ms ms', o = some (ms, ms') → ∀ m ∈ ms', m.1 ≠ "callmap"
  starts : ∀ rest, StartsKey (tokens (front ++ rest))
  members : ∀ text ov, Embeds n text ov → ∀ fuel rest,
    2 * (tokens (front ++ (text ++ (back ++ '\x7d' :: rest)))).length + 3 ≤ fuel →
    (readWritten fuel n true (tokens (front ++ (text ++ (back ++ '\x7d' :: rest))))).toOption =
      (ov.bind fun v => o.map fun p => p.1 ++ ("callmap", v) :: p.2).map (·, tokens rest)

theorem key_of_member {keys : List (List Char)} {ms : List (String × Value)} {m : String × Value}
    (h : List.Forall₂ (fun key m => StringText m.1 key) keys ms) (hm : m ∈ ms) :
    ∃ key ∈ keys, StringText m.1 key := by
  induction h with
  | nil => contradiction
  | @cons key m' keys ms hkey _ ih =>
    rcases List.mem_cons.mp hm with rfl | hm
    · exact ⟨key, List.mem_cons_self, hkey⟩
    · obtain ⟨key', hmem, hkey'⟩ := ih hm
      exact ⟨key', List.mem_cons_of_mem key hmem, hkey'⟩

theorem nodup_of_distinct {keys : List (List Char)} {ms : List (String × Value)}
    (h : List.Forall₂ (fun key m => StringText m.1 key) keys ms)
    (hkeys : keys.Pairwise fun k k' => ¬ ∃ s, StringText s k ∧ StringText s k') :
    (ms.map Prod.fst).Nodup := by
  induction h with
  | nil => exact List.nodup_nil
  | @cons key m keys ms hkey hmore ih =>
    obtain ⟨hfirst, hrest⟩ := List.pairwise_cons.mp hkeys
    rw [List.map_cons, List.nodup_cons]
    refine ⟨fun hmem => ?_, ih hrest⟩
    obtain ⟨m', hm', hname⟩ := List.mem_map.mp hmem
    obtain ⟨key', hkey', htext⟩ := key_of_member hmore hm'
    rw [hname] at htext
    exact hfirst key' hkey' ⟨m.1, hkey, htext⟩

theorem embedsAround_last (hl : EmbedsLead key lead (some "callmap")) :
    EmbedsAround n lead [] (some ([], [])) := by
  refine ⟨?_, hl.starts, fun text ov hv fuel rest hf => ?_⟩
  · rintro _ _ ⟨⟩
    exact nofun
  · rw [List.nil_append] at hf ⊢
    rw [hl.reads_last hv hf]
    cases ov <;> rfl

theorem embedsAround_before {keys : List (List Char)} {o : Option (List (String × Value))}
    (hl : EmbedsLead key lead (some "callmap")) (hm : EmbedsMembers n keys t o)
    (hother : ∀ key ∈ keys, ¬ StringText "callmap" key) :
    EmbedsAround n lead (',' :: t) (o.map fun ms => ([], ms)) := by
  refine ⟨?_, hl.starts, fun text ov hv fuel rest hf => ?_⟩
  · intro ms ms' hms m hmem hname
    obtain ⟨more, ho, heq⟩ := Option.map_eq_some_iff.mp hms
    obtain ⟨-, rfl⟩ := Prod.mk.inj heq
    obtain ⟨key', hkey', htext⟩ := key_of_member (hm.spells more ho) hmem
    rw [hname] at htext
    exact hother key' hkey' htext
  · rw [List.cons_append] at hf ⊢
    rw [hl.reads_more hv (hm.starts _) (fun _ => hm.members _ rest) hf]
    cases ov <;> cases o <;> rfl

theorem embedsAround_behind {o : Option String} {ot : Option Value}
    {os : Option (List (String × Value) × List (String × Value))} (hl : EmbedsLead key lead o)
    (ht : Embeds n t ot) (hs : EmbedsAround n front back os) :
    EmbedsAround n (lead ++ t ++ ',' :: front) back
      ((o.bind fun s => ot.map fun v => (s, v)).bind fun m => os.map fun p => (m :: p.1, p.2)) := by
  have htext (rest : List Char) :
      lead ++ t ++ ',' :: front ++ rest = lead ++ (t ++ ',' :: (front ++ rest)) := by simp
  refine ⟨?_, fun rest => ?_, fun text ov hv fuel rest hf => ?_⟩
  · intro ms ms' hms m hmem
    obtain ⟨_, -, hmore⟩ := Option.bind_eq_some_iff.mp hms
    obtain ⟨p, hos, heq⟩ := Option.map_eq_some_iff.mp hmore
    obtain ⟨-, rfl⟩ := Prod.mk.inj heq
    exact hs.other p.1 p.2 hos m hmem
  · rw [htext]
    exact hl.starts _
  · rw [htext] at hf ⊢
    rw [hl.reads_more ht (hs.starts _) (fun _ => hs.members text ov hv _ rest) hf]
    cases o.bind fun s => ot.map fun v => (s, v) <;> cases ov <;> cases os <;> rfl

theorem MembersAround.embeds (h : MembersAround front back) (n : Nat) :
    ∃ o, EmbedsAround n front back o := by
  induction h with
  | last hkey hlead => exact ⟨_, embedsAround_last (hlead.embeds_text hkey)⟩
  | before hkey hlead hmore hother =>
    obtain ⟨o, hm⟩ := hmore.embeds n
    exact ⟨_, embedsAround_before (hlead.embeds_text hkey) hm hother⟩
  | behind _ hlead ht _ ih =>
    obtain ⟨o, hl⟩ := hlead.embeds
    obtain ⟨ot, ht⟩ := ht.embeds n
    obtain ⟨os, hs⟩ := ih
    exact ⟨_, embedsAround_behind hl ht hs⟩

theorem expectEnd_blanks {b : List Char} (hb : Blanks b) : expectEnd (tokens b) = .ok () := by
  have hend : tokens b = tokens [] := by
    have hblanks := tokens_blanks hb []
    rwa [List.append_nil] at hblanks
  rw [hend]
  rfl

theorem tokens_brace {a : List Char} (ha : Blanks a) (rest : List Char) :
    ∃ brace, (headToken (brace :: tokens rest)).kind = .leftBrace ∧
      tokens (a ++ '\x7b' :: rest) = brace :: tokens rest := by
  have hopen : ('\x7b', .leftBrace) ∈ marks := by decide
  refine ⟨⟨.leftBrace, '\x7b' :: rest, rest⟩, rfl, ?_⟩
  rw [tokens_blanks ha, tokens_mark hopen]

theorem read_toOption (text : List Char) : (Value.read text).toOption =
    (readValue (2 * (tokens text).length + 2) 127 (tokens text)).toOption.bind fun r =>
      (expectEnd r.2).toOption.map fun _ => r.1 := by
  have hread : (Value.read text).toOption = (Value.ofTokens (tokens text)).toOption := by
    rw [Value.read]
    cases Value.ofTokens (tokens text) <;> rfl
  rw [hread, Value.ofTokens]
  simp only [depthLimit]
  cases readValue (2 * (tokens text).length + 2) 127 (tokens text) with
  | error e => rfl
  | ok r =>
    simp only [ok_bind, toOption_ok, Option.bind_some]
    cases expectEnd r.2 <;> rfl

/-- The value of a package file is an object in which the program finds what is read from the text in it, or
there is none. -/
theorem PackageAround.read (h : PackageAround front back) :
    ∃ o : Option (List (String × Value) × List (String × Value)),
      (∀ ms ms', o = some (ms, ms') → ∀ m ∈ ms', m.1 ≠ "callmap") ∧
      ∀ text ov, Embeds 126 text ov → (Value.read (front ++ text ++ back)).toOption =
        ov.bind fun v => o.map fun p => .object (keptMembers (p.1 ++ ("callmap", v) :: p.2)) := by
  cases h with
  | @object a b front back ha haround hb =>
    obtain ⟨o, ho⟩ := haround.embeds 126
    refine ⟨o, ho.other, fun text ov hv => ?_⟩
    have htext : a ++ '\x7b' :: front ++ text ++ (back ++ '\x7d' :: b) =
        a ++ '\x7b' :: (front ++ (text ++ (back ++ '\x7d' :: b))) := by simp
    obtain ⟨brace, hbrace, htokens⟩ := tokens_brace ha (front ++ (text ++ (back ++ '\x7d' :: b)))
    rw [read_toOption, htext, htokens, List.length_cons, readValue_object hbrace, List.tail_cons,
      toOption_map, ho.members text ov hv _ b (by omega)]
    cases ov with
    | none => rfl
    | some v =>
      cases o with
      | none => rfl
      | some p =>
        simp only [Option.map_some, Option.bind_some, expectEnd_blanks hb, toOption_ok]

theorem lookup_packageMember {ms ms' : List (String × Value)} (h : ∀ m ∈ ms', m.1 ≠ "callmap") :
    (Value.object (keptMembers (ms ++ ("callmap", v) :: ms'))).member? packageMember = some v := by
  have hnone : ms'.reverse.lookup "callmap" = none := by
    apply lookup_of_not_mem
    intro hmem
    obtain ⟨m, hm, hname⟩ := List.mem_map.mp hmem
    exact h m (List.mem_reverse.mp hm) hname
  have hlookup : (ms ++ ("callmap", v) :: ms').reverse.lookup "callmap" = some v := by
    rw [List.reverse_append, List.reverse_cons, List.append_assoc, List.lookup_append, hnone,
      Option.none_or, List.singleton_append, lookup_cons_self]
  rw [Value.member?, packageMember, lookup_keptMembers, hlookup]

/-! ## Reading a file of its own -/

/-- The keys of the members that are read are distinct if those of the text are. -/
theorem nodup_of_keys {ms : List (String × Value)} {fuel : Nat} {after : List Token}
    (h : DistinctKeys text) (hfuel : 2 * (tokens text).length + 1 ≤ fuel)
    (hhead : (headToken (tokens text)).kind = .leftBrace)
    (hread : readWritten fuel n true (tokens text).tail = .ok (ms, after)) :
    (ms.map Prod.fst).Nodup := by
  have hopen : ('\x7b', .leftBrace) ∈ marks := by decide
  cases h with
  | other hother =>
    obtain ⟨a, rest, ha, htext, -⟩ := mark_spells hopen hhead
    exact absurd htext (hother a rest ha)
  | @emptyObject a t b ha ht hb =>
    obtain ⟨brace, -, htokens⟩ := tokens_brace ha (t ++ '\x7d' :: b)
    have htext : a ++ '\x7b' :: t ++ '\x7d' :: b = a ++ '\x7b' :: (t ++ '\x7d' :: b) := by simp
    obtain ⟨fuel, rfl⟩ := Nat.exists_eq_add_of_le' (show 1 ≤ fuel by omega)
    rw [htext, htokens, List.tail_cons, readWritten_blanks ht] at hread
    obtain ⟨rfl, -⟩ := Prod.mk.inj (Except.ok.inj hread)
    exact List.nodup_nil
  | @object a t b keys ha hmembers hb hdistinct =>
    obtain ⟨brace, -, htokens⟩ := tokens_brace ha (t ++ '\x7d' :: b)
    have htext : a ++ '\x7b' :: t ++ '\x7d' :: b = a ++ '\x7b' :: (t ++ '\x7d' :: b) := by simp
    obtain ⟨o, ho⟩ := hmembers.embeds n
    rw [htext, htokens, List.length_cons] at hfuel
    rw [htext, htokens, List.tail_cons] at hread
    have hms := ho.members fuel b (by omega)
    rw [hread, toOption_ok] at hms
    obtain ⟨ms', rfl, heq⟩ := Option.map_eq_some_iff.mp hms.symm
    obtain ⟨rfl, -⟩ := Prod.mk.inj heq
    exact nodup_of_distinct (ho.spells _ rfl) hdistinct

/-- The settings in a text are those in the value that is read from it, wherever the text stands. -/
theorem ofTokens_toOption {o : Option Value} (hkeys : DistinctKeys text) (hv : Embeds 126 text o) :
    (ofTokens (tokens text)).toOption = o.bind fun v => (ofValue v).toOption := by
  have hagrees := readFront_agrees (2 * (tokens text).length + 1) 124 (tokens text) (Nat.le_refl _)
    fun hk ms after hms => nodup_of_keys hkeys (Nat.le_refl _) hk hms
  have hvalue := hv.value (2 * (tokens text).length + 1 + 1) [] nofun (by simp)
  rw [List.append_nil] at hvalue
  have hend : expectEnd (tokens []) = .ok () := rfl
  rw [ofTokens_eq]
  rcases hagrees with ⟨s, v, after, hfront, hread, htake⟩ | ⟨⟨e, hfront⟩, hrefuse⟩
  · rw [hread, toOption_ok] at hvalue
    obtain ⟨v', rfl, heq⟩ := Option.map_eq_some_iff.mp hvalue.symm
    obtain ⟨rfl, rfl⟩ := Prod.mk.inj heq
    simp [hfront, hend, htake]
  · rw [hfront, error_bind, toOption_error]
    cases o with
    | none => rfl
    | some v =>
      obtain ⟨c, hc⟩ := hrefuse v (tokens []) (toOption_eq_some.mp hvalue)
      rw [Option.bind_some, hc]
      rfl

/-! ## Both files -/

theorem ofFile_toOption {h : Host} {path : String} (hread : readText h path = .ok text) :
    (ofFile h path).toOption = (ofTokens (tokens text)).toOption.bind fun s =>
      s.validate.toOption.map fun _ => s := by
  rw [ofFile, hread, mapError_ok, ok_bind, ofText, Settings.read]
  cases ofTokens (tokens text) with
  | error e => rfl
  | ok s =>
    simp only [mapError_ok, ok_bind, toOption_ok, Option.bind_some]
    cases s.validate <;> rfl

theorem ofPackage_toOption {h : Host} {path : String} {value : Value}
    (hread : readText h path = .ok text) (hvalue : (Value.read text).toOption = some value)
    (hmember : value.member? packageMember = some v) :
    (ofPackage h path).toOption = (ofValue v).toOption.bind fun s =>
      s.validate.toOption.map fun _ => some s := by
  rw [ofPackage, hread, mapError_ok, ok_bind, ofPackageText, toOption_eq_some.mp hvalue, mapError_ok,
    ok_bind, hmember]
  dsimp only
  cases ofValue v with
  | error c => rfl
  | ok s =>
    simp only [mapError_ok, ok_bind, toOption_ok, Option.bind_some]
    cases s.validate <;> rfl

theorem ofPackage_unreadable {h : Host} {path : String} (hread : readText h path = .ok text)
    (hvalue : (Value.read text).toOption = none) : ∃ e, ofPackage h path = .error e := by
  rw [ofPackage, hread, mapError_ok, ok_bind, ofPackageText]
  cases hv : Value.read text with
  | error e => exact ⟨_, rfl⟩
  | ok value =>
    rw [hv] at hvalue
    contradiction

/-- Settings are the same in a file of their own and as the value of the only member for this program in a
package file, or neither file gives any. This holds of every well-formed text whose keys are distinct, as
long as nothing else is wrong with the package file: with some other text in the place of this one it can
be read. If this text alone makes it unreadable, then the file of its own is rejected too. -/
theorem files_agree {h : Host} {own package : String} {text other front back : List Char}
    (hform : ElementForm text) (hkeys : DistinctKeys text) (haround : PackageAround front back)
    (hother : ElementForm other) (hread : ∃ v, Value.read (front ++ other ++ back) = .ok v)
    (hown : readText h own = .ok text)
    (hpackage : readText h package = .ok (front ++ text ++ back)) :
    ((∃ s, ofFile h own = .ok s ∧ ofPackage h package = .ok (some s)) ∨
      ∃ e e', ofFile h own = .error e ∧ ofPackage h package = .error e') ∧
    ((∀ v, Value.read (front ++ text ++ back) ≠ .ok v) → ∃ e, ofFile h own = .error e) := by
  obtain ⟨o, hmembers, haround⟩ := haround.read
  obtain ⟨ov, hv⟩ := hform.embeds 126
  obtain ⟨ow, hw⟩ := hother.embeds 126
  obtain ⟨v, hread⟩ := hread
  have hrest := haround other ow hw
  rw [hread, toOption_ok] at hrest
  obtain ⟨_, -, hrest⟩ := Option.bind_eq_some_iff.mp hrest.symm
  obtain ⟨⟨ms, ms'⟩, rfl, -⟩ := Option.map_eq_some_iff.mp hrest
  have hvalue := haround text ov hv
  have hfile := ofFile_toOption hown
  rw [ofTokens_toOption hkeys hv] at hfile
  cases ov with
  | none =>
    obtain ⟨e', he'⟩ := ofPackage_unreadable hpackage hvalue
    cases hf : ofFile h own with
    | error e => exact ⟨.inr ⟨e, e', rfl, he'⟩, fun _ => ⟨e, rfl⟩⟩
    | ok s =>
      rw [hf] at hfile
      contradiction
  | some w =>
    have hpack := ofPackage_toOption hpackage hvalue (lookup_packageMember (hmembers ms ms' rfl))
    refine ⟨?_, fun hunreadable => absurd (toOption_eq_some.mp hvalue) (hunreadable _)⟩
    have hboth : (ofPackage h package).toOption = (ofFile h own).toOption.map some := by
      rw [hpack, hfile, Option.bind_some]
      cases ofValue w with
      | error c => rfl
      | ok s =>
        simp only [toOption_ok, Option.bind_some]
        cases s.validate <;> rfl
    cases hf : ofFile h own with
    | error e =>
      rw [hf, toOption_error, Option.map_none] at hboth
      cases hp : ofPackage h package with
      | error e' => exact .inr ⟨e, e', rfl, rfl⟩
      | ok r =>
        rw [hp] at hboth
        contradiction
    | ok s =>
      rw [hf, toOption_ok, Option.map_some] at hboth
      exact .inl ⟨s, rfl, toOption_eq_some.mp hboth⟩

/-- A character other than quotes, slashes and control characters. -/
def isPlainChar (c : Char) : Bool := c != '"' && c != '\\' && 0x20 ≤ c.toNat

theorem isPlainChar_iff {c : Char} : isPlainChar c = true ↔ c ≠ '"' ∧ c ≠ '\\' ∧ 0x20 ≤ c.toNat := by
  rw [isPlainChar, Bool.and_eq_true, Bool.and_eq_true, bne_iff_ne, bne_iff_ne, decide_eq_true_eq,
    and_assoc]

/-- A string of such characters is written as it is. -/
theorem stringText_of_plain {s : String} (h : s.toList.all isPlainChar = true) :
    StringText s ('"' :: s.toList ++ ['"']) := by
  refine .quoted ?_
  generalize s.toList = cs at h
  induction cs with
  | nil => exact .nil
  | cons c cs ih =>
    rw [List.all_cons, Bool.and_eq_true] at h
    obtain ⟨hquote, hslash, hcode⟩ := isPlainChar_iff.mp h.1
    exact .cons (.itself hquote hslash hcode) (ih h.2)

/-- A text of settings in both kinds of files. -/
def sampleFiles : Disk.Node := .directory [
  ("settings.json", .file (Text.bytes "\x7b\"jobs\":2\x7d")),
  ("package.json", .file (Text.bytes "\x7b\"name\":\"x\",\"callmap\":\x7b\"jobs\":2\x7d\x7d"))]

def sampleSettings : List Char := "\x7b\"jobs\":2\x7d".toList

def sampleFront : List Char := "\x7b\"name\":\"x\",\"callmap\":".toList

theorem files_agree_sampleFiles :
    DistinctKeys sampleSettings ∧ PackageAround sampleFront ['\x7d'] ∧
      readText sampleFiles.host "/settings.json" = .ok sampleSettings ∧
      readText sampleFiles.host "/package.json" = .ok (sampleFront ++ sampleSettings ++ ['\x7d']) ∧
      ofFile sampleFiles.host "/settings.json" = .ok ⟨none, some 2⟩ ∧
      ofPackage sampleFiles.host "/package.json" = .ok (some ⟨none, some 2⟩) := by
  have hname : StringText "name" "\"name\"".toList := stringText_of_plain (by decide)
  have hx : StringText "x" "\"x\"".toList := stringText_of_plain (by decide)
  have hjobs : StringText "jobs" "\"jobs\"".toList := stringText_of_plain (by decide)
  have hcallmap : StringText "callmap" "\"callmap\"".toList := stringText_of_plain (by decide)
  have htwo : ElementForm "2".toList :=
    .spaced blanks_nil (.number (numberForm_toString 2)) blanks_nil
  have hmembers : MembersForm ["\"jobs\"".toList] "\"jobs\":2".toList :=
    .last (.colon blanks_nil hjobs.form blanks_nil) htwo
  have hform : ElementForm sampleSettings := .spaced blanks_nil (.object hmembers) blanks_nil
  have hkeys : DistinctKeys sampleSettings :=
    .object blanks_nil hmembers blanks_nil (List.pairwise_singleton _ _)
  have hother : ¬ StringText "callmap" "\"name\"".toList := by
    intro h
    have hread := (h.read []).symm.trans (hname.read [])
    simp at hread
  have haround : PackageAround sampleFront ['\x7d'] := by
    have hvalue : ElementForm "\"x\"".toList :=
      .spaced blanks_nil (.string hx.form) blanks_nil
    exact .object blanks_nil (.behind hother (.colon blanks_nil hname.form blanks_nil) hvalue
      (.last hcallmap (.colon blanks_nil hcallmap.form blanks_nil))) blanks_nil
  have hvalue : (Value.read (sampleFront ++ sampleSettings ++ ['\x7d'])).toOption.isSome = true := by
    decide +kernel
  obtain ⟨v, hv⟩ := Option.isSome_iff_exists.mp hvalue
  have hown : readText sampleFiles.host "/settings.json" = .ok sampleSettings := by decide +kernel
  have hpackage : readText sampleFiles.host "/package.json" =
      .ok (sampleFront ++ sampleSettings ++ ['\x7d']) := by decide +kernel
  have hfile : ofFile sampleFiles.host "/settings.json" = .ok ⟨none, some 2⟩ := by decide +kernel
  obtain ⟨hagree, -⟩ :=
    files_agree hform hkeys haround hform ⟨v, toOption_eq_some.mp hv⟩ hown hpackage
  refine ⟨hkeys, haround, hown, hpackage, hfile, ?_⟩
  rcases hagree with ⟨s, hs, hp⟩ | ⟨e, e', he, -⟩
  · rw [hfile] at hs
    rw [hp, ← Except.ok.inj hs]
  · rw [hfile] at he
    exact absurd he nofun

end Census.Settings
