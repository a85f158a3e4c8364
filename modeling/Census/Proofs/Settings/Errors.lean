import Census.Proofs.Settings.Choice
/-!
Errors of loading settings. The one file that is asked is named first, in the words of the stage at which
it fails, and the reason comes behind. Settings that have been loaded are valid, so that filling them in
does not fail.
-/

namespace Census.Settings

open Census.Disk (Host OsError join)

variable {h : Host} {root path : String} {named : Option String} {source : SettingsSource}
  {e : SettingsError} {s : Settings}

/-! ## The file that is asked -/

/-- The files that are looked for in a root, in this order. -/
def candidates (root : String) : List SettingsSource := [
  .own (join root ".callmaprc.json"), .own (join root "callmap.config.json"),
  .package (join root "package.json")]

/-- The file that is asked for settings: the one that is named, or else the first regular file of the
root. -/
def asked? (h : Host) (root : String) : Option String → Option SettingsSource
  | some path => some (.own path)
  | none => (candidates root).find? fun source => h.target source.path == .ok .file

/-- What a file says about the settings. A package file may say nothing. -/
def ofSource (h : Host) : SettingsSource → Except SettingsError (Option Settings)
  | .own path => (ofFile h path).map some
  | .package path => ofPackage h path

/-! ## Stages -/

inductive Stage where
  | reading
  | parsing
  | checking
  deriving DecidableEq, Repr

/-- What stands before the path of a file that fails at a stage. -/
def Stage.words : Stage → SettingsSource → String
  | reading, .own _ => "failed to read config file: "
  | reading, .package _ => "failed to read "
  | parsing, .own _ => "failed to parse config file: "
  | parsing, .package _ => "failed to parse "
  | checking, .own _ => "invalid config in: "
  | checking, .package _ => "invalid callmap config in "

/-- At which stage a file fails, and for what reason. The shape of a member of a package file is looked at
only when the file has been parsed. -/
inductive FailsAt (h : Host) : SettingsSource → Stage → String → Prop where
  | unreadable {source : SettingsSource} {cause : OsError} : h.read source.path = .error cause →
      FailsAt h source .reading cause.message
  | notText {source : SettingsSource} {bytes : List UInt8} : h.read source.path = .ok bytes →
      Text.decode? bytes = none → FailsAt h source .reading "stream did not contain valid UTF-8"
  | unparsable {path : String} {text : List Char} {cause : Json.Error} :
      readText h path = .ok text → Settings.read text = .error cause →
      FailsAt h (.own path) .parsing cause.message
  | unparsablePackage {path : String} {text : List Char} {cause : Json.Error} :
      readText h path = .ok text → Json.Value.read text = .error cause →
      FailsAt h (.package path) .parsing cause.message
  | misshapen {path : String} {value member : Json.Value} {cause : Json.Cause} :
      HasValue h path value → value.member? "callmap" = some member → ofValue member = .error cause →
      FailsAt h (.package path) .checking cause.message
  | emptyPart {source : SettingsSource} {text : List Char} {s : Settings} {parts : List String} :
      readText h source.path = .ok text → Says source text (.ok s) → s.ignore = some parts →
      "" ∈ parts → FailsAt h source .checking "ignore entries must not be empty strings"

/-- An error of a file: first the file, in the words of a stage at which it fails, then the reason. -/
def Reported (h : Host) (source : SettingsSource) (chain : List String) : Prop :=
  ∃ stage cause, FailsAt h source stage cause ∧ chain = [stage.words source ++ source.path, cause]

/-! ## What one file comes to -/

theorem checked_eq_error {r : Except SettingsError Settings} :
    checked source r = .error e ↔ r = .error e ∨ ∃ s parts, r = .ok s ∧ s.ignore = some parts ∧
      "" ∈ parts ∧ e = .invalid source .emptyPart := by
  cases r with
  | error cause => simp [checked]
  | ok s =>
    by_cases hv : ∀ parts, s.ignore = some parts → "" ∉ parts
    · simp only [checked, ok_bind, validate_eq_ok hv, mapError_ok, pure_eq_ok]
      constructor
      · intro h
        cases h
      · rintro (h | ⟨_, parts, h, hp, he, -⟩)
        · cases h
        · obtain rfl := Except.ok.inj h
          exact absurd he (hv parts hp)
    · obtain ⟨parts, hp, he⟩ : ∃ parts, s.ignore = some parts ∧ "" ∈ parts := by simpa using hv
      simp only [checked, ok_bind, validate_eq_error hp he, mapError_error, error_bind, Except.error.injEq]
      constructor
      · rintro rfl
        exact .inr ⟨s, parts, rfl, hp, he, rfl⟩
      · rintro (h | ⟨_, _, -, -, -, rfl⟩)
        · cases h
        · rfl

theorem ofSource_of_readText_error {cause : ReadFailure} (ht : readText h source.path = .error cause) :
    ofSource h source = .error (.unreadable source cause) := by
  cases source with
  | own path =>
    have ht : readText h path = .error cause := ht
    simp [ofSource, ofFile, ht]
  | package path =>
    have ht : readText h path = .error cause := ht
    simp [ofSource, ofPackage, ht]

theorem ofSource_of_text {text : List Char} {r : Except SettingsError Settings}
    (ht : readText h source.path = .ok text) (hs : Says source text r) :
    ofSource h source = (checked source r).map some := by
  cases hs with
  | own path text => exact congrArg (Except.map some) (ofFile_eq_checked ht)
  | package path hv hm => exact ofPackage_eq_checked ht hv hm

theorem failsAt_of_readText {cause : ReadFailure} (ht : readText h source.path = .error cause) :
    FailsAt h source .reading cause.message := by
  rcases readText_eq_error.mp ht with ⟨e, hr, rfl⟩ | ⟨bytes, hr, hd, rfl⟩
  · exact .unreadable hr
  · exact .notText hr hd

theorem reported_of_refused {text : List Char} {r : Except SettingsError Settings}
    (ht : readText h source.path = .ok text) (hs : Says source text r) (hr : r = .error e) :
    Reported h source e.chain := by
  cases hs with
  | own path text =>
    obtain ⟨cause, hcause, rfl⟩ := mapError_eq_error.mp hr
    exact ⟨.parsing, cause.message, .unparsable ht hcause, rfl⟩
  | package path hv hm =>
    obtain ⟨cause, hcause, rfl⟩ := mapError_eq_error.mp hr
    exact ⟨.checking, cause.message, .misshapen ⟨text, ht, hv⟩ hm hcause, rfl⟩

theorem reported_of_text {text : List Char} {r : Except SettingsError Settings}
    (ht : readText h source.path = .ok text) (hs : Says source text r)
    (he : checked source r = .error e) : Reported h source e.chain := by
  rcases checked_eq_error.mp he with hr | ⟨s, parts, rfl, hp, hempty, rfl⟩
  · exact reported_of_refused ht hs hr
  · exact ⟨.checking, _, .emptyPart ht hs hp hempty, by cases source <;> rfl⟩

/-- A package file that is text is no JSON, or says nothing, or has a member that says something. -/
theorem ofPackage_cases {text : List Char} (ht : readText h path = .ok text) :
    (∃ cause, Json.Value.read text = .error cause ∧
      ofPackage h path = .error (.unparsable (.package path) cause)) ∨
    (∃ value, Json.Value.read text = .ok value ∧ value.member? "callmap" = none ∧
      ofPackage h path = .ok none) ∨
    ∃ r, Says (.package path) text r := by
  cases hv : Json.Value.read text with
  | error cause => exact .inl ⟨cause, rfl, by simp [ofPackage, ht, ofPackageText, hv]⟩
  | ok value =>
    cases hm : value.member? "callmap" with
    | none => exact .inr (.inl ⟨value, rfl, hm, ofPackage_eq_none ⟨text, ht, hv⟩ hm⟩)
    | some member => exact .inr (.inr ⟨_, .package path hv hm⟩)

theorem reported_of_error (he : ofSource h source = .error e) : Reported h source e.chain := by
  cases ht : readText h source.path with
  | error cause =>
    obtain rfl := Except.error.inj ((ofSource_of_readText_error ht).symm.trans he)
    exact ⟨.reading, cause.message, failsAt_of_readText ht, by cases source <;> rfl⟩
  | ok text =>
    have hsaid (r : Except SettingsError Settings) (hs : Says source text r) :
        Reported h source e.chain :=
      reported_of_text ht hs (map_eq_error.mp ((ofSource_of_text ht hs).symm.trans he))
    cases source with
    | own path => exact hsaid _ (.own path text)
    | package path =>
      rcases ofPackage_cases ht with ⟨cause, hv, hcause⟩ | ⟨value, -, -, hnone⟩ | ⟨r, hs⟩
      · obtain rfl := Except.error.inj (hcause.symm.trans he)
        exact ⟨.parsing, cause.message, .unparsablePackage ht hv, rfl⟩
      · exact absurd (hnone.symm.trans he) (by simp)
      · exact hsaid r hs

theorem error_of_failsAt {stage : Stage} {cause : String} (hf : FailsAt h source stage cause) :
    ∃ e, ofSource h source = .error e ∧ e.chain = [stage.words source ++ source.path, cause] := by
  cases hf with
  | @unreadable _ cause hr =>
    have ht : readText h source.path = .error (.os cause) :=
      readText_eq_error.mpr (.inl ⟨cause, hr, rfl⟩)
    exact ⟨_, ofSource_of_readText_error ht, by cases source <;> rfl⟩
  | notText hr hd =>
    have ht : readText h source.path = .error .notUtf8 :=
      readText_eq_error.mpr (.inr ⟨_, hr, hd, rfl⟩)
    exact ⟨_, ofSource_of_readText_error ht, by cases source <;> rfl⟩
  | @unparsable path text cause ht hr =>
    refine ⟨.unparsable (.own path) cause, ?_, rfl⟩
    rw [ofSource_of_text ht (.own path text), hr]
    rfl
  | @unparsablePackage path text cause ht hv =>
    exact ⟨.unparsable (.package path) cause, by simp [ofSource, ofPackage, ht, ofPackageText, hv], rfl⟩
  | @misshapen path value member cause hv hm hr =>
    obtain ⟨text, ht, hv⟩ := hv
    refine ⟨.misshapen (.package path) ⟨cause, none⟩, ?_, rfl⟩
    rw [ofSource_of_text ht (.package path hv hm), hr]
    rfl
  | emptyPart ht hs hp he =>
    refine ⟨.invalid source .emptyPart, ?_, by cases source <;> rfl⟩
    rw [ofSource_of_text ht hs, checked_eq_error.mpr (.inr ⟨_, _, rfl, hp, he, rfl⟩)]
    rfl

/-! ## Settings that have been loaded -/

theorem valid_of_ofSource (hs : ofSource h source = .ok (some s)) :
    ∀ parts, s.ignore = some parts → "" ∉ parts := by
  cases ht : readText h source.path with
  | error cause => exact absurd ((ofSource_of_readText_error ht).symm.trans hs) (by simp)
  | ok text =>
    obtain ⟨bytes, -, hd⟩ := readText_eq_ok.mp ht
    have hsaid (r : Except SettingsError Settings) (hr : Says source text r) :
        ∀ parts, s.ignore = some parts → "" ∉ parts := by
      obtain ⟨_, hchecked, hsame⟩ := map_eq_ok.mp ((ofSource_of_text ht hr).symm.trans hs)
      obtain rfl := Option.some.inj hsame
      exact (hchecked ▸ outcome_checked hd hr).valid
    cases source with
    | own path => exact hsaid _ (.own path text)
    | package path =>
      rcases ofPackage_cases ht with ⟨cause, -, hcause⟩ | ⟨value, -, -, hnone⟩ | ⟨r, hr⟩
      · exact absurd (hcause.symm.trans hs) (by simp)
      · exact absurd (hnone.symm.trans hs) (by simp)
      · exact hsaid r hr

/-! ## Loading -/

theorem discover_eq (h : Host) (root : String) :
    discover h root = match asked? h root none with
      | some source => (ofSource h source).map (Option.map fun s => (s, source.path))
      | none => .ok none := by
  have hfile (path : String) : (h.target path == .ok .file) = h.isFile path := by
    rw [Bool.eq_iff_iff, isFile_iff, beq_iff_eq, IsRegular]
  simp only [asked?, candidates, List.find?_cons, List.find?_nil, SettingsSource.path, hfile]
  by_cases h₁ : IsRegular h (join root ".callmaprc.json")
  · simp only [isFile_iff.mpr h₁, discover_first h₁, ofSource]
    cases ofFile h (join root ".callmaprc.json") <;> rfl
  by_cases h₂ : IsRegular h (join root "callmap.config.json")
  · simp only [isFile_eq_false_iff.mpr h₁, isFile_iff.mpr h₂, discover_second h₁ h₂, ofSource]
    cases ofFile h (join root "callmap.config.json") <;> rfl
  · simp only [isFile_eq_false_iff.mpr h₁, isFile_eq_false_iff.mpr h₂, discover_third h₁ h₂]
    cases h.isFile (join root "package.json") <;> rfl

theorem load_of_discover_some {path : String} (hd : discover h root = .ok (some (s, path)))
    (hs : s.resolve = .ok (filled s none)) : load h root none = .ok (filled s (some path)) := by
  simp [load, hd, hs, filled]

/-- Settings that have been found are valid. -/
theorem valid_of_discover {path : String} (hd : discover h root = .ok (some (s, path))) :
    ∀ parts, s.ignore = some parts → "" ∉ parts := by
  rw [discover_eq] at hd
  split at hd
  · obtain ⟨found, hfound, hsame⟩ := map_eq_ok.mp hd
    obtain ⟨s', rfl, hpair⟩ := Option.map_eq_some_iff.mp hsame
    obtain ⟨rfl, -⟩ := Prod.mk.inj hpair
    exact valid_of_ofSource hfound
  · exact absurd hd (by simp)

/-- Loading fails if and only if the file that is asked does, and with its error. -/
theorem load_eq_error : load h root named = .error e ↔
    ∃ source, asked? h root named = some source ∧ ofSource h source = .error e := by
  cases named with
  | some path => simp [load_named, asked?, ofSource, map_eq_error]
  | none =>
    have hdiscover : load h root none = .error e ↔ discover h root = .error e := by
      cases hd : discover h root with
      | error cause => simp [load, hd]
      | ok found =>
        cases found with
        | none => simp [load_of_discover_none hd]
        | some found =>
          obtain ⟨s, path⟩ := found
          simp [load_of_discover_some hd (resolve_eq_ok (valid_of_discover hd))]
    rw [hdiscover, discover_eq]
    cases asked? h root none with
    | none => simp
    | some source => simp [map_eq_error]

/-- The reason for refusing settings does not stand where a file is named. -/
theorem words_append_ne (stage : Stage) (source : SettingsSource) (path : String) :
    stage.words source ++ path ≠ "ignore entries must not be empty strings" := by
  intro heq
  have hfront := congrArg (fun text => text.toList.take 2) heq
  cases stage <;> cases source <;> simp [Stage.words] at hfront

/-- Loading fails if and only if the one file that is asked fails at some stage. Then the error says first,
in the words of this stage, which file it is, and behind that the reason. Settings that have been loaded can
always be filled in, so an empty entry is never what an error says first. -/
theorem load_error_names_asked_file (h : Host) (root : String) (named : Option String) :
    (∀ chain, (∃ e, load h root named = .error e ∧ e.chain = chain) ↔
        ∃ source stage cause, asked? h root named = some source ∧ FailsAt h source stage cause ∧
          chain = [stage.words source ++ source.path, cause]) ∧
      (∀ s, ((∃ path, ofFile h path = .ok s) ∨ (∃ path, discover h root = .ok (some (s, path))) ∨
          s = .empty) → ∃ r, s.resolve = .ok r) ∧
      (∀ cause, load h root named ≠ .error (.unresolved cause)) ∧
      ∀ e, load h root named = .error e →
        e.chain.head? ≠ some "ignore entries must not be empty strings" := by
  have hreported (e : SettingsError) (he : load h root named = .error e) :
      ∃ source, asked? h root named = some source ∧ Reported h source e.chain := by
    obtain ⟨source, hsource, he⟩ := load_eq_error.mp he
    exact ⟨source, hsource, reported_of_error he⟩
  refine ⟨fun chain => ⟨?_, ?_⟩, ?_, ?_, ?_⟩
  · rintro ⟨e, he, rfl⟩
    obtain ⟨source, hsource, stage, cause, hf, hchain⟩ := hreported e he
    exact ⟨source, stage, cause, hsource, hf, hchain⟩
  · rintro ⟨source, stage, cause, hsource, hf, rfl⟩
    obtain ⟨e, he, hchain⟩ := error_of_failsAt hf
    exact ⟨e, load_eq_error.mpr ⟨source, hsource, he⟩, hchain⟩
  · rintro s (⟨path, hs⟩ | ⟨path, hs⟩ | rfl)
    · have hs : ofSource h (.own path) = .ok (some s) := by simp [ofSource, hs]
      exact ⟨_, resolve_eq_ok (valid_of_ofSource hs)⟩
    · exact ⟨_, resolve_eq_ok (valid_of_discover hs)⟩
    · exact ⟨_, resolve_eq_ok (by simp [Settings.empty])⟩
  · intro cause he
    obtain ⟨_, _, _, _, _, hchain⟩ := hreported _ he
    simp [SettingsError.chain] at hchain
  · intro e he hhead
    obtain ⟨source, _, stage, cause, _, hchain⟩ := hreported e he
    rw [hchain, List.head?_cons] at hhead
    exact words_append_ne stage source source.path (Option.some.inj hhead)

/-- An empty entry in a file that stands behind a directory of the name of the file before it. -/
def sampleEmptyEntry : Disk.Node := .directory [
  (".callmaprc.json", .directory []),
  ("callmap.config.json", .file (Text.bytes "\x7b\"ignore\": [\"a\", \"\"]\x7d")),
  ("package.json", .file (Text.bytes "no JSON"))]

theorem load_error_names_asked_file_sampleEmptyEntry :
    asked? sampleEmptyEntry.host "/" none = some (.own "/callmap.config.json") ∧
      ∃ source stage cause, asked? sampleEmptyEntry.host "/" none = some source ∧
        FailsAt sampleEmptyEntry.host source stage cause ∧
        ["invalid config in: /callmap.config.json", "ignore entries must not be empty strings"] =
          [stage.words source ++ source.path, cause] := by
  have hload : load sampleEmptyEntry.host "/" none =
      .error (.invalid (.own "/callmap.config.json") .emptyPart) := by
    decide +kernel
  have hnames := (load_error_names_asked_file sampleEmptyEntry.host "/" none).1
  exact ⟨by decide +kernel, (hnames _).mp ⟨_, hload, rfl⟩⟩

end Census.Settings
