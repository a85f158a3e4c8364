import Census.Disk.Volume
import Census.Proofs.Except
import Census.Proofs.Text.ByteOrder
import Census.Settings.Load
/-!
Which file decides the settings of a scan. A file that is named decides; else the first of three files
of the root that is there, where a package file counts only if it has a member for this program. What
comes of the file that decides depends on nothing but its bytes.
-/

namespace Census.Settings

open Census.Disk (Host OsError join)

variable {h : Host} {root path : String} {named : Option String} {source : SettingsSource}

/-! ## Choices -/

/-- A regular file stands at a path, or at the end of the links there. -/
def IsRegular (h : Host) (path : String) : Prop := h.target path = .ok .file

/-- The file at a path is text, and the text is JSON. -/
def HasValue (h : Host) (path : String) (value : Json.Value) : Prop :=
  ∃ text, readText h path = .ok text ∧ Json.Value.read text = .ok value

inductive Choice where
  | file (source : SettingsSource)
  | usual
  /-- A package file of which nobody can say whether it has a member for this program. -/
  | brokenPackage
  deriving DecidableEq, Repr

def Choice.path? : Choice → Option String
  | file source => some source.path
  | usual | brokenPackage => none

/-- What a scan goes by if only a package file may decide. -/
inductive PackageChoice (h : Host) (path : String) : Choice → Prop where
  | member {value member : Json.Value} : IsRegular h path → HasValue h path value →
      value.member? "callmap" = some member → PackageChoice h path (.file (.package path))
  | noMember {value : Json.Value} : IsRegular h path → HasValue h path value →
      value.member? "callmap" = none → PackageChoice h path .usual
  | absent : ¬ IsRegular h path → PackageChoice h path .usual
  | broken : IsRegular h path → (∀ value, ¬ HasValue h path value) →
      PackageChoice h path .brokenPackage

/-- What a scan of a root goes by, with or without a file that is named. -/
inductive Chooses (h : Host) (root : String) : Option String → Choice → Prop where
  | named (path : String) : Chooses h root (some path) (.file (.own path))
  | first : IsRegular h (join root ".callmaprc.json") →
      Chooses h root none (.file (.own (join root ".callmaprc.json")))
  | second : ¬ IsRegular h (join root ".callmaprc.json") →
      IsRegular h (join root "callmap.config.json") →
      Chooses h root none (.file (.own (join root "callmap.config.json")))
  | third {c : Choice} : ¬ IsRegular h (join root ".callmaprc.json") →
      ¬ IsRegular h (join root "callmap.config.json") →
      PackageChoice h (join root "package.json") c → Chooses h root none c

theorem isFile_iff : h.isFile path = true ↔ IsRegular h path := by
  unfold Host.isFile IsRegular
  cases h.target path <;> simp [Except.toOption]

theorem isFile_eq_false_iff : h.isFile path = false ↔ ¬ IsRegular h path := by
  rw [← isFile_iff, Bool.not_eq_true]

theorem HasValue.unique {v w : Json.Value} (hv : HasValue h path v) (hw : HasValue h path w) :
    v = w := by
  obtain ⟨text, htext, hv⟩ := hv
  obtain ⟨text', htext', hw⟩ := hw
  obtain rfl : text = text' := Except.ok.inj (htext.symm.trans htext')
  exact Except.ok.inj (hv.symm.trans hw)

theorem exists_packageChoice (h : Host) (path : String) : ∃ c, PackageChoice h path c := by
  by_cases hf : IsRegular h path
  · by_cases hv : ∃ value, HasValue h path value
    · obtain ⟨value, hv⟩ := hv
      cases hm : value.member? "callmap" with
      | some member => exact ⟨_, .member hf hv hm⟩
      | none => exact ⟨_, .noMember hf hv hm⟩
    · exact ⟨_, .broken hf (not_exists.mp hv)⟩
  · exact ⟨_, .absent hf⟩

theorem PackageChoice.unique {c d : Choice} (hc : PackageChoice h path c)
    (hd : PackageChoice h path d) : c = d := by
  cases hc with
  | member hf hv hm =>
    cases hd with
    | member => rfl
    | noMember _ hw hn =>
      obtain rfl := hv.unique hw
      exact absurd (hm.symm.trans hn) (by simp)
    | absent hn => exact absurd hf hn
    | broken _ hn => exact absurd hv (hn _)
  | noMember hf hv hm =>
    cases hd with
    | member _ hw hn =>
      obtain rfl := hv.unique hw
      exact absurd (hm.symm.trans hn) (by simp)
    | noMember => rfl
    | absent => rfl
    | broken _ hn => exact absurd hv (hn _)
  | absent hf =>
    cases hd with
    | member hn => exact absurd hn hf
    | noMember => rfl
    | absent => rfl
    | broken hn => exact absurd hn hf
  | broken hf hv =>
    cases hd with
    | member _ hw => exact absurd hw (hv _)
    | noMember _ hw => exact absurd hw (hv _)
    | absent hn => exact absurd hf hn
    | broken => rfl

theorem exists_choice (h : Host) (root : String) (named : Option String) :
    ∃ c, Chooses h root named c := by
  cases named with
  | some path => exact ⟨_, .named path⟩
  | none =>
    by_cases h₁ : IsRegular h (join root ".callmaprc.json")
    · exact ⟨_, .first h₁⟩
    · by_cases h₂ : IsRegular h (join root "callmap.config.json")
      · exact ⟨_, .second h₁ h₂⟩
      · obtain ⟨c, hc⟩ := exists_packageChoice h (join root "package.json")
        exact ⟨c, .third h₁ h₂ hc⟩

theorem Chooses.unique {c d : Choice} (hc : Chooses h root named c) (hd : Chooses h root named d) :
    c = d := by
  cases hc with
  | named path =>
    cases hd with
    | named => rfl
  | first h₁ =>
    cases hd with
    | first => rfl
    | second hn => exact absurd h₁ hn
    | third hn => exact absurd h₁ hn
  | second h₁ h₂ =>
    cases hd with
    | first hn => exact absurd hn h₁
    | second => rfl
    | third _ hn => exact absurd h₂ hn
  | third h₁ h₂ hp =>
    cases hd with
    | first hn => exact absurd hn h₁
    | second _ hn => exact absurd hn h₂
    | third _ _ hp' => exact hp.unique hp'

/-! ## What comes of a file -/

/-- What the text of a file says about the settings, whether or not they are valid. -/
inductive Says : SettingsSource → List Char → Except SettingsError Settings → Prop where
  | own (path : String) (text : List Char) :
      Says (.own path) text ((read text).mapError (.unparsable (.own path)))
  | package (path : String) {text : List Char} {value member : Json.Value} :
      Json.Value.read text = .ok value → value.member? "callmap" = some member →
      Says (.package path) text
        ((ofValue member).mapError fun cause => .misshapen (.package path) ⟨cause, none⟩)

/-- What comes of a file that decides, by what is read from it. Each way to fail is an error of its
own. -/
inductive Outcome (source : SettingsSource) :
    Except OsError (List UInt8) → Except SettingsError Settings → Prop where
  | unreadable (cause : OsError) :
      Outcome source (.error cause) (.error (.unreadable source (.os cause)))
  | notText {bytes : List UInt8} : Text.decode? bytes = none →
      Outcome source (.ok bytes) (.error (.unreadable source .notUtf8))
  | refused {bytes : List UInt8} {text : List Char} {e : SettingsError} :
      Text.decode? bytes = some text → Says source text (.error e) →
      Outcome source (.ok bytes) (.error e)
  | invalid {bytes : List UInt8} {text : List Char} {s : Settings} {parts : List String} :
      Text.decode? bytes = some text → Says source text (.ok s) → s.ignore = some parts →
      "" ∈ parts → Outcome source (.ok bytes) (.error (.invalid source .emptyPart))
  | taken {bytes : List UInt8} {text : List Char} {s : Settings} :
      Text.decode? bytes = some text → Says source text (.ok s) →
      (∀ parts, s.ignore = some parts → "" ∉ parts) → Outcome source (.ok bytes) (.ok s)

/-- Settings with what is absent filled in. -/
def filled (s : Settings) (source : Option String) : Resolved :=
  ⟨s.ignore.getD ["node_modules", "tests"], s.jobs.getD 1, source⟩

theorem validate_eq_ok {s : Settings} (hs : ∀ parts, s.ignore = some parts → "" ∉ parts) :
    s.validate = .ok () := by
  have hvalid : s.isValid = true := by
    unfold isValid
    split
    · rename_i parts hp
      rw [List.all_eq_true]
      intro part hm
      have hne : part ≠ "" := by
        rintro rfl
        exact hs parts hp hm
      simpa using hne
    · rfl
  rw [validate, if_pos hvalid]

theorem validate_eq_error {s : Settings} {parts : List String} (hp : s.ignore = some parts)
    (he : "" ∈ parts) : s.validate = .error .emptyPart := by
  have hinvalid : s.isValid = false := by
    rw [isValid, hp, List.all_eq_false]
    exact ⟨"", he, by simp⟩
  rw [validate, hinvalid]
  rfl

/-- Settings once they are checked. -/
def checked (source : SettingsSource) (r : Except SettingsError Settings) :
    Except SettingsError Settings := do
  let s ← r
  s.validate.mapError (.invalid source)
  return s

theorem outcome_checked {bytes : List UInt8} {text : List Char} {r : Except SettingsError Settings}
    (hd : Text.decode? bytes = some text) (hs : Says source text r) :
    Outcome source (.ok bytes) (checked source r) := by
  cases r with
  | error e => exact .refused hd hs
  | ok s =>
    by_cases hv : ∀ parts, s.ignore = some parts → "" ∉ parts
    · have hok : checked source (.ok s) = .ok s := by simp [checked, validate_eq_ok hv]
      rw [hok]
      exact .taken hd hs hv
    · obtain ⟨parts, hp, he⟩ : ∃ parts, s.ignore = some parts ∧ "" ∈ parts := by
        simpa using hv
      have herror : checked source (.ok s) = .error (.invalid source .emptyPart) := by
        simp [checked, validate_eq_error hp he]
      rw [herror]
      exact .invalid hd hs hp he

theorem readText_eq_ok {text : List Char} :
    readText h path = .ok text ↔ ∃ bytes, h.read path = .ok bytes ∧ Text.decode? bytes = some text := by
  unfold readText
  cases h.read path with
  | error e => simp
  | ok bytes => cases hd : Text.decode? bytes <;> simp [hd]

theorem readText_eq_error {cause : ReadFailure} : readText h path = .error cause ↔
    (∃ e, h.read path = .error e ∧ cause = .os e) ∨
      ∃ bytes, h.read path = .ok bytes ∧ Text.decode? bytes = none ∧ cause = .notUtf8 := by
  unfold readText
  cases h.read path with
  | error e => simp [eq_comm]
  | ok bytes => cases hd : Text.decode? bytes <;> simp [hd, eq_comm]

theorem outcome_of_unreadable {cause : ReadFailure} (he : readText h path = .error cause) :
    Outcome source (h.read path) (.error (.unreadable source cause)) := by
  rcases readText_eq_error.mp he with ⟨e, hr, rfl⟩ | ⟨bytes, hr, hd, rfl⟩
  · rw [hr]
    exact .unreadable e
  · rw [hr]
    exact .notText hd

theorem ofFile_eq_checked {text : List Char} (ht : readText h path = .ok text) :
    ofFile h path = checked (.own path) ((read text).mapError (.unparsable (.own path))) := by
  simp [ofFile, ht, ofText, checked]

theorem ofPackage_eq_checked {text : List Char} {value member : Json.Value}
    (ht : readText h path = .ok text) (hv : Json.Value.read text = .ok value)
    (hm : value.member? "callmap" = some member) :
    ofPackage h path = (checked (.package path)
      ((ofValue member).mapError fun cause => .misshapen (.package path) ⟨cause, none⟩)).map some := by
  cases hs : ofValue member with
  | error cause => simp [ofPackage, ht, ofPackageText, hv, packageMember, hm, checked, hs]
  | ok s =>
    cases hvalid : s.validate <;>
      simp [ofPackage, ht, ofPackageText, hv, packageMember, hm, checked, hs, hvalid]

theorem outcome_ofFile (h : Host) (path : String) :
    Outcome (.own path) (h.read path) (ofFile h path) := by
  cases ht : readText h path with
  | error cause =>
    have heq : ofFile h path = .error (.unreadable (.own path) cause) := by simp [ofFile, ht]
    rw [heq]
    exact outcome_of_unreadable ht
  | ok text =>
    obtain ⟨bytes, hr, hd⟩ := readText_eq_ok.mp ht
    rw [ofFile_eq_checked ht, hr]
    exact outcome_checked hd (.own path text)

theorem outcome_ofPackage {value member : Json.Value} (hv : HasValue h path value)
    (hm : value.member? "callmap" = some member) :
    ∃ r, Outcome (.package path) (h.read path) r ∧ ofPackage h path = r.map some := by
  obtain ⟨text, ht, hv⟩ := hv
  obtain ⟨bytes, hr, hd⟩ := readText_eq_ok.mp ht
  exact ⟨_, hr ▸ outcome_checked hd (.package path hv hm), ofPackage_eq_checked ht hv hm⟩

theorem ofPackage_eq_none {value : Json.Value} (hv : HasValue h path value)
    (hm : value.member? "callmap" = none) : ofPackage h path = .ok none := by
  obtain ⟨text, ht, hv⟩ := hv
  simp [ofPackage, ht, ofPackageText, hv, packageMember, hm]

/-- Why a file is no JSON text. -/
inductive Broken (h : Host) (path : String) : SettingsError → Prop where
  | unreadable {cause : ReadFailure} : readText h path = .error cause →
      Broken h path (.unreadable (.package path) cause)
  | unparsable {text : List Char} {cause : Json.Error} : readText h path = .ok text →
      Json.Value.read text = .error cause → Broken h path (.unparsable (.package path) cause)

theorem ofPackage_eq_error (hv : ∀ value, ¬ HasValue h path value) :
    ∃ e, Broken h path e ∧ ofPackage h path = .error e := by
  cases ht : readText h path with
  | error cause => exact ⟨_, .unreadable ht, by simp [ofPackage, ht]⟩
  | ok text =>
    cases hread : Json.Value.read text with
    | ok value => exact absurd ⟨text, ht, hread⟩ (hv value)
    | error cause => exact ⟨_, .unparsable ht hread, by simp [ofPackage, ht, ofPackageText, hread]⟩

/-! ## One outcome for each answer -/

theorem Says.unique {text : List Char} {r r' : Except SettingsError Settings}
    (hs : Says source text r) (hs' : Says source text r') : r = r' := by
  cases hs with
  | own path text =>
    cases hs' with
    | own => rfl
  | package path hv hm =>
    cases hs' with
    | package _ hv' hm' =>
      obtain rfl := Except.ok.inj (hv.symm.trans hv')
      rw [Option.some.inj (hm.symm.trans hm')]

theorem Outcome.eq_checked {bytes : List UInt8} {text : List Char}
    {said r : Except SettingsError Settings} (ho : Outcome source (.ok bytes) r)
    (hd : Text.decode? bytes = some text) (hs : Says source text said) :
    r = checked source said := by
  cases ho with
  | notText hn => exact absurd (hn.symm.trans hd) (by simp)
  | refused hd' hs' =>
    obtain rfl := Option.some.inj (hd.symm.trans hd')
    rw [hs.unique hs']
    rfl
  | invalid hd' hs' hp he =>
    obtain rfl := Option.some.inj (hd.symm.trans hd')
    rw [hs.unique hs']
    simp [checked, validate_eq_error hp he]
  | taken hd' hs' hv =>
    obtain rfl := Option.some.inj (hd.symm.trans hd')
    rw [hs.unique hs']
    simp [checked, validate_eq_ok hv]

theorem Outcome.unique {answer : Except OsError (List UInt8)} {r r' : Except SettingsError Settings}
    (ho : Outcome source answer r) (ho' : Outcome source answer r') : r = r' := by
  cases ho with
  | unreadable cause =>
    cases ho' with
    | unreadable => rfl
  | notText hn =>
    cases ho' with
    | notText => rfl
    | refused hd => exact absurd (hn.symm.trans hd) (by simp)
    | invalid hd => exact absurd (hn.symm.trans hd) (by simp)
    | taken hd => exact absurd (hn.symm.trans hd) (by simp)
  | refused hd hs => exact (ho'.eq_checked hd hs).symm
  | invalid hd hs hp he =>
    rw [ho'.eq_checked hd hs]
    simp [checked, validate_eq_error hp he]
  | taken hd hs hv =>
    rw [ho'.eq_checked hd hs]
    simp [checked, validate_eq_ok hv]

theorem Outcome.valid {answer : Except OsError (List UInt8)} {s : Settings}
    (ho : Outcome source answer (.ok s)) : ∀ parts, s.ignore = some parts → "" ∉ parts := by
  cases ho with
  | taken _ _ hv => exact hv

/-! ## Loading -/

theorem resolve_eq_ok {s : Settings} (hv : ∀ parts, s.ignore = some parts → "" ∉ parts) :
    s.resolve = .ok (filled s none) := by
  simp [resolve, validate_eq_ok hv, filled, usualIgnored, usualJobs]

theorem load_named (h : Host) (root path : String) :
    load h root (some path) = (ofFile h path).map (filled · (some path)) := by
  cases hf : ofFile h path with
  | error e => simp [load, hf]
  | ok s =>
    have ho := outcome_ofFile h path
    rw [hf] at ho
    simp [load, hf, resolve_eq_ok ho.valid, filled]

theorem load_discovered {r : Except SettingsError Settings}
    (hd : discover h root = r.map fun s => some (s, path))
    (hv : ∀ s, r = .ok s → ∀ parts, s.ignore = some parts → "" ∉ parts) :
    load h root none = r.map (filled · (some path)) := by
  cases r with
  | error e => simp [load, hd]
  | ok s => simp [load, hd, resolve_eq_ok (hv s rfl), filled]

theorem load_of_discover_none (hd : discover h root = .ok none) :
    load h root none = .ok (filled .empty none) := by
  have hv : ∀ parts, Settings.empty.ignore = some parts → "" ∉ parts := by simp [Settings.empty]
  simp [load, hd, resolve_eq_ok hv, filled]

theorem discover_first (hf : IsRegular h (join root ".callmaprc.json")) :
    discover h root =
      (ofFile h (join root ".callmaprc.json")).map fun s => some (s, join root ".callmaprc.json") := by
  have hfile := isFile_iff.mpr hf
  cases ho : ofFile h (join root ".callmaprc.json") <;> simp [discover, fileNames, hfile, ho]

theorem discover_second (hn : ¬ IsRegular h (join root ".callmaprc.json"))
    (hf : IsRegular h (join root "callmap.config.json")) :
    discover h root = (ofFile h (join root "callmap.config.json")).map fun s =>
      some (s, join root "callmap.config.json") := by
  have hfile := isFile_iff.mpr hf
  have hfirst := isFile_eq_false_iff.mpr hn
  cases ho : ofFile h (join root "callmap.config.json") <;>
    simp [discover, fileNames, hfirst, hfile, ho]

theorem discover_third (hn : ¬ IsRegular h (join root ".callmaprc.json"))
    (hn' : ¬ IsRegular h (join root "callmap.config.json")) :
    discover h root = if h.isFile (join root "package.json") then
      (ofPackage h (join root "package.json")).map
        (Option.map fun s => (s, join root "package.json")) else .ok none := by
  have hfirst := isFile_eq_false_iff.mpr hn
  have hsecond := isFile_eq_false_iff.mpr hn'
  cases ho : ofPackage h (join root "package.json") <;>
    cases hf : h.isFile (join root "package.json") <;>
      simp [discover, fileNames, packageName, hfirst, hsecond, hf, ho]

theorem load_of_file (hc : Chooses h root named (.file source)) :
    ∃ r, Outcome source (h.read source.path) r ∧
      load h root named = r.map (filled · (some source.path)) := by
  cases hc with
  | named path => exact ⟨_, outcome_ofFile h path, load_named h root path⟩
  | first hf =>
    have ho := outcome_ofFile h (join root ".callmaprc.json")
    exact ⟨_, ho, load_discovered (discover_first hf) fun s hs => (hs ▸ ho).valid⟩
  | second hn hf =>
    have ho := outcome_ofFile h (join root "callmap.config.json")
    exact ⟨_, ho, load_discovered (discover_second hn hf) fun s hs => (hs ▸ ho).valid⟩
  | third hn hn' hp =>
    cases hp with
    | member hf hv hm =>
      obtain ⟨r, ho, hr⟩ := outcome_ofPackage hv hm
      refine ⟨r, ho, load_discovered ?_ fun s hs => (hs ▸ ho).valid⟩
      rw [discover_third hn hn', if_pos (isFile_iff.mpr hf), hr]
      cases r <;> rfl

theorem load_of_usual (hc : Chooses h root named .usual) :
    load h root named = .ok (filled .empty none) := by
  cases hc with
  | third hn hn' hp =>
    apply load_of_discover_none
    rw [discover_third hn hn']
    cases hp with
    | noMember hf hv hm => rw [if_pos (isFile_iff.mpr hf), ofPackage_eq_none hv hm, map_ok, Option.map_none]
    | absent hf => rw [if_neg (by rw [isFile_iff]; exact hf)]

theorem load_of_brokenPackage (hc : Chooses h root named .brokenPackage) :
    ∃ e, Broken h (join root "package.json") e ∧ load h root named = .error e := by
  cases hc with
  | third hn hn' hp =>
    cases hp with
    | broken hf hv =>
      obtain ⟨e, hbroken, he⟩ := ofPackage_eq_error hv
      have hd : discover h root = .error e := by
        rw [discover_third hn hn', if_pos (isFile_iff.mpr hf), he, map_error]
      exact ⟨e, hbroken, by simp [load, hd]⟩

/-- The settings that a scan of a root goes by, with what is absent still absent. -/
inductive GoesBy (h : Host) (root : String) (named : Option String) : Settings → Prop where
  | file {source : SettingsSource} {s : Settings} : Chooses h root named (.file source) →
      Outcome source (h.read source.path) (.ok s) → GoesBy h root named s
  | usual : Chooses h root named .usual → GoesBy h root named .empty

theorem load_of_goesBy {s : Settings} (hs : GoesBy h root named s) :
    ∃ path, load h root named = .ok (filled s path) := by
  cases hs with
  | file hc ho =>
    obtain ⟨r, ho', hload⟩ := load_of_file hc
    rw [ho'.unique ho] at hload
    exact ⟨_, hload⟩
  | usual hc => exact ⟨_, load_of_usual hc⟩

theorem goesBy_of_load {r : Resolved} (hr : load h root named = .ok r) :
    ∃ s path, GoesBy h root named s ∧ r = filled s path := by
  obtain ⟨c, hc⟩ := exists_choice h root named
  cases c with
  | file source =>
    obtain ⟨r', ho, hload⟩ := load_of_file hc
    obtain ⟨s, rfl, hs⟩ := map_eq_ok.mp (hload.symm.trans hr)
    exact ⟨s, _, .file hc ho, hs.symm⟩
  | usual => exact ⟨_, _, .usual hc, Except.ok.inj (hr.symm.trans (load_of_usual hc))⟩
  | brokenPackage =>
    obtain ⟨e, -, he⟩ := load_of_brokenPackage hc
    exact absurd (he.symm.trans hr) (by simp)

theorem source_of_load {c : Choice} {r : Resolved} (hc : Chooses h root named c)
    (hr : load h root named = .ok r) : r.source = c.path? := by
  cases c with
  | file source =>
    obtain ⟨_, -, hload⟩ := load_of_file hc
    obtain ⟨s, -, rfl⟩ := map_eq_ok.mp (hload.symm.trans hr)
    rfl
  | usual =>
    rw [← Except.ok.inj ((load_of_usual hc).symm.trans hr)]
    rfl
  | brokenPackage =>
    obtain ⟨e, -, he⟩ := load_of_brokenPackage hc
    exact absurd (he.symm.trans hr) (by simp)

/-- Every scan goes by exactly one choice. If that is a file, then what is read from it decides the outcome
by itself: nothing else that is in the root, or in another file system, makes a difference, and a
failure is an error of this file. -/
theorem load_goes_by_one_choice (h : Host) (root : String) (named : Option String) :
    ∃ c, (∀ d, Chooses h root named d ↔ d = c) ∧
      (∀ source, c = .file source →
        (∃ r, Outcome source (h.read source.path) r ∧
          load h root named = r.map (filled · (some source.path))) ∧
        ∀ h' root' named', Chooses h' root' named' (.file source) →
          h'.read source.path = h.read source.path →
          load h' root' named' = load h root named) ∧
      (c = .usual → load h root named = .ok ⟨["node_modules", "tests"], 1, none⟩) ∧
      (c = .brokenPackage →
        ∃ e, Broken h (join root "package.json") e ∧ load h root named = .error e) ∧
      (∀ r, load h root named = .ok r → r.source = c.path?) ∧
      ∀ path, c = .file (.package path) → ∀ value, HasValue h path value →
        value.member? "callmap" = some .null →
        load h root named =
          .error (.misshapen (.package path) ⟨.wrongType .null "struct CallmapConfig", none⟩) := by
  obtain ⟨c, hc⟩ := exists_choice h root named
  refine ⟨c, ?_, ?_, ?_, ?_, ?_, ?_⟩
  · intro d
    constructor
    · exact fun hd => hd.unique hc
    · rintro rfl
      exact hc
  · rintro source rfl
    obtain ⟨r, ho, hr⟩ := load_of_file hc
    refine ⟨⟨r, ho, hr⟩, ?_⟩
    intro h' root' named' hc' hread
    obtain ⟨r', ho', hr'⟩ := load_of_file hc'
    rw [hread] at ho'
    rw [hr, hr', ho'.unique ho]
  · rintro rfl
    exact load_of_usual hc
  · rintro rfl
    exact load_of_brokenPackage hc
  · exact fun r hr => source_of_load hc hr
  · rintro path rfl value ⟨text, ht, hv⟩ hm
    obtain ⟨bytes, hbytes, hd⟩ := readText_eq_ok.mp ht
    obtain ⟨r, ho, hr⟩ := load_of_file hc
    have ho' : Outcome (.package path) (.ok bytes) r := hbytes ▸ ho
    rw [hr, ho'.eq_checked hd (.package path hv hm)]
    rfl

/-- A file of this program, with a dangling link in the place of the file before it and a bad package file
behind it. -/
def sampleRoot : Disk.Node := .directory [
  (".callmaprc.json", .link "gone.json"),
  ("callmap.config.json", .file (Text.bytes "\x7b\"jobs\": 3\x7d")),
  ("package.json", .file (Text.bytes "\x7b\"callmap\": null\x7d"))]

theorem load_goes_by_one_choice_sampleRoot :
    Chooses sampleRoot.host "/" none (.file (.own "/callmap.config.json")) ∧
      (∃ r, Outcome (.own "/callmap.config.json") (sampleRoot.host.read "/callmap.config.json") r ∧
        load sampleRoot.host "/" none = r.map (filled · (some "/callmap.config.json"))) ∧
      load sampleRoot.host "/" none =
        .ok ⟨["node_modules", "tests"], 3, some "/callmap.config.json"⟩ := by
  have hfirst : ¬ sampleRoot.host.target "/.callmaprc.json" = .ok .file := by decide +kernel
  have hsecond : sampleRoot.host.target "/callmap.config.json" = .ok .file := by decide +kernel
  have hc : Chooses sampleRoot.host "/" none (.file (.own "/callmap.config.json")) :=
    .second hfirst hsecond
  obtain ⟨c, hchoice, hfile, -⟩ := load_goes_by_one_choice sampleRoot.host "/" none
  obtain ⟨ho, -⟩ := hfile _ ((hchoice _).mp hc).symm
  exact ⟨hc, ho, by decide +kernel⟩

end Census.Settings
