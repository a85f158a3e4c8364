import Census.Proofs.Json.Reading
import Census.Proofs.Json.Scanning
import Census.Proofs.Json.Settling
/-!
A well-formed value is read alike wherever it stands: from the tokens of any text that starts with it the
same value is read, or none, and the tokens behind it are left.
-/

namespace Census.Json

variable {fuel n : Nat} {cs t u key lead next rest : List Char} {v : Value} {ts : List Token}

/-! ## Tokens -/

theorem tokens_mark {c : Char} {k : TokenKind} (hc : (c, k) ∈ marks) (rest : List Char) :
    tokens (c :: rest) = ⟨k, c :: rest, rest⟩ :: tokens rest :=
  tokens_token (t := [c]) (readToken_mark _ hc rest) (isLast_mark _ hc)

theorem ends_mark {c : Char} {k : TokenKind} (hc : (c, k) ∈ marks) (rest : List Char) :
    EndsNumber (c :: rest) := by
  have hends := stops_mark hc (t := rest) [] nofun
  rwa [List.append_nil] at hends

/-- A text that is one token wherever no number goes on behind it. -/
def IsToken (k : TokenKind) (t : List Char) : Prop :=
  ∀ rest, EndsNumber rest → readToken (t ++ rest) = ⟨k, t ++ rest, rest⟩

/-- The kinds of tokens at which reading stops with a fault of their own. -/
def TokenKind.isBroken : TokenKind → Bool
  | .brokenString _ | .brokenScalar _ => true
  | _ => false

def IsBroken (t : List Char) : Prop :=
  ∀ rest, EndsNumber rest → (readToken (t ++ rest)).kind.isBroken = true

theorem IsToken.tokens {k : TokenKind} (h : IsToken k t) (hk : k.isLast = false)
    (hrest : EndsNumber rest) : tokens (t ++ rest) = ⟨k, t ++ rest, rest⟩ :: tokens rest :=
  tokens_token (h rest hrest) hk

theorem IsBroken.head (h : IsBroken t) (hrest : EndsNumber rest) :
    (headToken (tokens (t ++ rest))).kind.isBroken = true := by
  have hbroken := h rest hrest
  have hother : (readToken (t ++ rest)).kind ≠ .other := by
    intro hother
    rw [hother] at hbroken
    contradiction
  rw [headToken_tokens, dropWhile_of_kind hother]
  exact hbroken

theorem isToken_string {s : String} (h : StringText s t) : IsToken (.string s) t :=
  fun rest _ => h.read rest

/-- A string between quotes stands for a string, or for none wherever it stands. -/
theorem StringForm.settles (h : StringForm t) :
    (∃ s, StringText s t) ∨ ∀ rest, ∃ e, (readToken (t ++ rest)).kind = .brokenString e := by
  cases h with
  | @quoted t ht =>
    rcases ht.settles with ⟨cs, hcs⟩ | hbroken
    · refine .inl ⟨String.ofList cs, .quoted ?_⟩
      rwa [String.toList_ofList]
    · refine .inr fun rest => ?_
      obtain ⟨e, he⟩ := hbroken ((t ++ '"' :: rest).length + 1) [] rest
      refine ⟨e, ?_⟩
      have hread : readString (t ++ '"' :: rest) = .error e := by rw [readString, he]
      simp [readToken, hread]

theorem numberToken_settles (isNegative : Bool) (h : MagnitudeForm t) :
    (∃ x, ∀ rest start, EndsNumber rest →
      numberToken isNegative start (t ++ rest) = ⟨.number x, start, rest⟩) ∨
    ∀ rest start, EndsNumber rest →
      ∃ e, numberToken isNegative start (t ++ rest) = ⟨.brokenScalar e, start, []⟩ := by
  obtain ⟨o, ho⟩ := readMagnitude_settles isNegative h
  cases o with
  | some x =>
    refine .inl ⟨x, fun rest start hrest => ?_⟩
    have hread : readMagnitude isNegative (t ++ rest) = .ok (x, rest) :=
      toOption_eq_some.mp (ho rest hrest)
    rw [numberToken, hread]
  | none =>
    refine .inr fun rest start hrest => ?_
    have hread := ho rest hrest
    cases hmagnitude : readMagnitude isNegative (t ++ rest) with
    | error e => exact ⟨e, by rw [numberToken, hmagnitude]⟩
    | ok r =>
      rw [hmagnitude] at hread
      contradiction

theorem MagnitudeForm.head (h : MagnitudeForm t) : ∃ d ds, t = d :: ds ∧ d.isDigit = true := by
  cases h with
  | parts hw _ =>
    cases hw with
    | zero => exact ⟨'0', _, rfl, rfl⟩
    | digits hd => exact ⟨_, _, rfl, hd⟩

theorem NumberForm.settles (h : NumberForm t) : (∃ x, IsToken (.number x) t) ∨ IsBroken t := by
  cases h with
  | plain h =>
    obtain ⟨d, ds, rfl, hd⟩ := h.head
    rcases numberToken_settles false h with ⟨x, hx⟩ | hbroken
    · refine .inl ⟨x, fun rest hrest => ?_⟩
      rw [List.cons_append, readToken_digit hd]
      exact hx rest _ hrest
    · refine .inr fun rest hrest => ?_
      obtain ⟨e, he⟩ := hbroken rest (d :: ds ++ rest) hrest
      rw [List.cons_append, readToken_digit hd]
      rw [List.cons_append] at he
      rw [he]
      rfl
  | @negative t h =>
    have hsign (rest : List Char) : readToken ('-' :: t ++ rest) =
        numberToken true ('-' :: t ++ rest) (t ++ rest) := rfl
    rcases numberToken_settles true h with ⟨x, hx⟩ | hbroken
    · refine .inl ⟨x, fun rest hrest => ?_⟩
      rw [hsign]
      exact hx rest _ hrest
    · refine .inr fun rest hrest => ?_
      obtain ⟨e, he⟩ := hbroken rest ('-' :: t ++ rest) hrest
      rw [hsign, he]
      rfl

/-! ## Values

The bounds on the steps are those of the readers: twice the number of tokens and some more. -/

/-- Wherever a text stands, this value is read from it, or none. -/
structure Embeds (n : Nat) (t : List Char) (o : Option Value) : Prop where
  starts : ∀ rest, EndsNumber rest →
    nextElement true (tokens (t ++ rest)) = .ok (some (tokens (t ++ rest)))
  value : ∀ fuel rest, EndsNumber rest → 2 * (tokens (t ++ rest)).length + 2 ≤ fuel →
    (readValue fuel n (tokens (t ++ rest))).toOption = o.map (·, tokens rest)

/-- A text in front of the closing bracket of a list. -/
structure EmbedsItems (n : Nat) (t : List Char) (o : Option (List Value)) : Prop where
  starts : ∀ rest,
    nextElement true (tokens (t ++ ']' :: rest)) = .ok (some (tokens (t ++ ']' :: rest)))
  items : ∀ fuel rest, 2 * (tokens (t ++ ']' :: rest)).length + 3 ≤ fuel →
    (readItems fuel n true (tokens (t ++ ']' :: rest))).toOption = o.map (·, tokens rest)

theorem nextElement_of_kind (hbracket : (headToken ts).kind ≠ .rightBracket)
    (heof : (headToken ts).kind ≠ .eof) : nextElement true ts = .ok (some ts) := by
  unfold nextElement
  dsimp only
  split
  · contradiction
  · contradiction
  · rfl
  · rfl

theorem embeds_scalar (h : IsToken (firstKind v) t) (harray : firstKind v ≠ .leftBracket)
    (hobject : firstKind v ≠ .leftBrace) : Embeds n t (some v) := by
  have hlast : (firstKind v).isLast = false := by cases v <;> rfl
  have hbracket : firstKind v ≠ .rightBracket := by cases v <;> nofun
  refine ⟨fun rest hrest => ?_, fun fuel rest hrest hf => ?_⟩
  · rw [h.tokens hlast hrest]
    exact nextElement_of_kind hbracket (firstKind_ne_eof v)
  · obtain ⟨fuel, rfl⟩ := Nat.exists_eq_add_of_le' (show 1 ≤ fuel by omega)
    rw [h.tokens hlast hrest]
    cases v with
    | array => exact absurd rfl harray
    | object => exact absurd rfl hobject
    | _ => rfl

theorem embeds_broken (h : IsBroken t) : Embeds n t none := by
  refine ⟨fun rest hrest => ?_, fun fuel rest hrest hf => ?_⟩
  · have hhead := h.head hrest
    apply nextElement_of_kind
    · intro hk
      rw [hk] at hhead
      contradiction
    · intro hk
      rw [hk] at hhead
      contradiction
  · have hhead := h.head hrest
    obtain ⟨fuel, rfl⟩ := Nat.exists_eq_add_of_le' (show 1 ≤ fuel by omega)
    cases hread : readValue (fuel + 1) n (tokens (t ++ rest)) with
    | error e => rfl
    | ok r =>
      have hplain : (firstKind r.1).isBroken = false := by cases r.1 <;> rfl
      rw [head_of_readValue hread, hplain] at hhead
      contradiction

theorem isBroken_string (h : ∀ rest, ∃ e, (readToken (t ++ rest)).kind = .brokenString e) :
    IsBroken t := by
  intro rest _
  obtain ⟨e, he⟩ := h rest
  rw [he]
  rfl

/-- Blanks around a value change nothing. -/
theorem Embeds.spaced {a b : List Char} {o : Option Value} (h : Embeds n t o) (ha : Blanks a)
    (hb : Blanks b) : Embeds n (a ++ t ++ b) o := by
  have hfront (rest : List Char) : tokens (a ++ t ++ b ++ rest) = tokens (t ++ (b ++ rest)) := by
    rw [List.append_assoc, List.append_assoc, tokens_blanks ha]
  refine ⟨fun rest hrest => ?_, fun fuel rest hrest hf => ?_⟩
  · rw [hfront]
    exact h.starts _ (stops_blanks hb rest hrest)
  · rw [hfront] at hf ⊢
    rw [h.value fuel _ (stops_blanks hb rest hrest) hf, tokens_blanks hb]

/-! ## Lists -/

theorem readItems_first (h : nextElement true ts = .ok (some ts)) :
    (readItems (fuel + 1) n true ts).toOption = (readValue fuel n ts).toOption.bind fun r =>
      (readItems fuel n false r.2).toOption.map fun r' => (r.1 :: r'.1, r'.2) := by
  rw [readItems, h]
  simp only [ok_bind]
  cases readValue fuel n ts with
  | error e => rfl
  | ok r =>
    simp only [ok_bind, toOption_ok, Option.bind_some]
    cases readItems fuel n false r.2 <;> rfl

theorem Embeds.last_item {o : Option Value} (h : Embeds n t o) :
    EmbedsItems n t (o.map fun v => [v]) := by
  have hclose : (']', .rightBracket) ∈ marks := by decide
  refine ⟨fun rest => h.starts _ (ends_mark hclose rest), fun fuel rest hf => ?_⟩
  have hends := ends_mark hclose rest
  obtain ⟨fuel, rfl⟩ := Nat.exists_eq_add_of_le' (show 2 ≤ fuel by omega)
  rw [readItems_first (h.starts _ hends), h.value (fuel + 1) _ hends (by omega)]
  cases o with
  | none => rfl
  | some v =>
    rw [tokens_mark hclose]
    rfl

theorem Embeds.cons_items {o : Option Value} {os : Option (List Value)} (h : Embeds n t o)
    (hs : EmbedsItems n u os) :
    EmbedsItems n (t ++ ',' :: u) (o.bind fun v => os.map fun vs => v :: vs) := by
  have hcomma : (',', .comma) ∈ marks := by decide
  have hends (rest : List Char) := ends_mark hcomma (u ++ ']' :: rest)
  have hassoc (rest : List Char) : t ++ ',' :: u ++ ']' :: rest = t ++ ',' :: (u ++ ']' :: rest) := by
    rw [List.append_assoc, List.cons_append]
  refine ⟨fun rest => ?_, fun fuel rest hf => ?_⟩
  · rw [hassoc]
    exact h.starts _ (hends rest)
  · rw [hassoc] at hf ⊢
    obtain ⟨fuel, rfl⟩ := Nat.exists_eq_add_of_le' (show 2 ≤ fuel by omega)
    have hvalue := h.value (fuel + 1) _ (hends rest) (by omega)
    rw [readItems_first (h.starts _ (hends rest)), hvalue]
    cases o with
    | none => rfl
    | some v =>
      have hlt := (read_shorter (fuel + 1)).1 _ _ _ _ (toOption_eq_some.mp hvalue)
      rw [tokens_mark hcomma, List.length_cons] at hlt
      simp only [Option.map_some, Option.bind_some]
      rw [tokens_mark hcomma, readItems_comma rfl (hs.starts rest), hs.items _ _ (by omega)]
      cases os <;> rfl

theorem readValue_deep (h : (headToken ts).kind = .leftBracket ∨ (headToken ts).kind = .leftBrace) :
    (readValue fuel 0 ts).toOption = none := by
  cases fuel with
  | zero => rfl
  | succ fuel => rcases h with h | h <;> simp [readValue, h]

/-- A text that starts with an opening mark starts like a value. -/
theorem starts_of_open {c : Char} {k : TokenKind} (hc : (c, k) ∈ marks) (hbracket : k ≠ .rightBracket)
    (rest : List Char) : nextElement true (tokens (c :: rest)) = .ok (some (tokens (c :: rest))) := by
  have heof : ∀ m ∈ marks, m.2 ≠ .eof := by decide
  rw [tokens_mark hc]
  exact nextElement_of_kind hbracket (heof _ hc)

/-- A list is read if a level is left for it. -/
theorem embeds_list (hread : ∃ o : Option (List Value), ∀ fuel rest,
      2 * (tokens (t ++ ']' :: rest)).length + 3 ≤ fuel →
      (readItems fuel n true (tokens (t ++ ']' :: rest))).toOption = o.map (·, tokens rest)) :
    ∃ o, Embeds (n + 1) ('[' :: t ++ [']']) o := by
  have hopen : ('[', .leftBracket) ∈ marks := by decide
  have htext (rest : List Char) : '[' :: t ++ [']'] ++ rest = '[' :: (t ++ ']' :: rest) := by simp
  obtain ⟨o, ho⟩ := hread
  refine ⟨o.map .array, fun rest _ => ?_, fun fuel rest _ hf => ?_⟩
  · rw [htext]
    exact starts_of_open hopen nofun _
  · rw [htext, tokens_mark hopen, List.length_cons] at hf
    obtain ⟨fuel, rfl⟩ := Nat.exists_eq_add_of_le' (show 1 ≤ fuel by omega)
    rw [htext, tokens_mark hopen, readValue_array rfl, toOption_map, List.tail_cons,
      ho fuel rest (by omega)]
    cases o <;> rfl

theorem embeds_emptyArray (ht : Blanks t) : ∃ o, Embeds (n + 1) ('[' :: t ++ [']']) o := by
  have hclose : (']', .rightBracket) ∈ marks := by decide
  refine embeds_list ⟨some [], fun fuel rest hf => ?_⟩
  obtain ⟨fuel, rfl⟩ := Nat.exists_eq_add_of_le' (show 1 ≤ fuel by omega)
  rw [tokens_blanks ht, tokens_mark hclose, readItems_end rfl]
  rfl

/-- No level is left for a list or an object. -/
theorem embeds_deep {c : Char} {k : TokenKind} (hc : (c, k) ∈ marks)
    (hk : k = .leftBracket ∨ k = .leftBrace) : Embeds 0 (c :: t) none := by
  refine ⟨fun rest _ => ?_, fun fuel rest _ _ => ?_⟩
  · refine starts_of_open hc ?_ _
    rcases hk with rfl | rfl <;> nofun
  · have hhead : (headToken (tokens (c :: (t ++ rest)))).kind = k := by
      rw [tokens_mark hc]
      rfl
    rw [← hhead] at hk
    exact readValue_deep hk

/-! ## Objects -/

/-- The front of these tokens is a key, or a string that cannot be read. -/
def StartsKey (ts : List Token) : Prop :=
  (∃ key, (headToken ts).kind = .string key) ∨ ∃ e, (headToken ts).kind = .brokenString e

theorem nextKey_of_starts (h : StartsKey ts) : nextKey true ts = some <$> readKey ts := by
  rcases h with ⟨key, hk⟩ | ⟨e, hk⟩ <;> simp only [nextKey, hk, if_true]

theorem nextKey_comma {t : Token} (ht : t.kind = .comma) (h : StartsKey ts) :
    nextKey false (t :: ts) = nextKey true ts := by
  have hhead : headToken (t :: ts) = t := rfl
  rw [nextKey_of_starts h]
  rcases h with ⟨key, hk⟩ | ⟨e, hk⟩ <;>
    simp only [nextKey, hhead, ht, List.tail_cons, hk, Bool.false_eq_true, if_false]

theorem readWritten_next {t : Token} (ht : t.kind = .comma) (h : StartsKey ts) :
    readWritten (fuel + 1) n false (t :: ts) = readWritten (fuel + 1) n true ts := by
  rw [readWritten, readWritten, nextKey_comma ht h, nextKey_of_starts h]
  cases readKey ts <;> rfl

/-- What stands in front of the value of a member is read alike wherever it stands. -/
structure EmbedsLead (key lead : List Char) (o : Option String) : Prop where
  spells : ∀ s, o = some s → StringText s key
  starts : ∀ rest, StartsKey (tokens (lead ++ rest))
  shorter : ∀ rest, o.isSome → (tokens rest).length + 2 ≤ (tokens (lead ++ rest)).length
  member : ∀ fuel n rest, (readWritten (fuel + 1) n true (tokens (lead ++ rest))).toOption =
    o.bind fun s => (readValue fuel n (tokens rest)).toOption.bind fun r =>
      (readWritten fuel n false r.2).toOption.map fun r' => ((s, r.1) :: r'.1, r'.2)

theorem tokens_lead {a b : List Char} (ha : Blanks a) (rest : List Char) :
    tokens (a ++ key ++ b ++ [':'] ++ rest) = tokens (key ++ (b ++ ':' :: rest)) := by
  simp only [List.append_assoc, List.singleton_append]
  exact tokens_blanks ha _

theorem embedsLead_text {a b : List Char} {s : String} (ha : Blanks a) (hs : StringText s key)
    (hb : Blanks b) : EmbedsLead key (a ++ key ++ b ++ [':']) (some s) := by
  have hcolon : (':', .colon) ∈ marks := by decide
  have htokens (rest : List Char) : tokens (a ++ key ++ b ++ [':'] ++ rest) =
      ⟨.string s, key ++ (b ++ ':' :: rest), b ++ ':' :: rest⟩ ::
        ⟨.colon, ':' :: rest, rest⟩ :: tokens rest := by
    rw [tokens_lead ha, tokens_token (hs.read _) rfl, tokens_blanks hb, tokens_mark hcolon]
  refine ⟨?_, fun rest => ?_, fun rest _ => ?_, fun fuel n rest => ?_⟩
  · rintro s' ⟨⟩
    exact hs
  · rw [htokens]
    exact .inl ⟨s, rfl⟩
  · rw [htokens]
    exact Nat.le_refl _
  · rw [htokens, readWritten, nextKey_string rfl]
    simp only [ok_bind, List.tail_cons, expectColon, headToken, List.headD_cons, Option.bind_some]
    cases readValue fuel n (tokens rest) with
    | error e => rfl
    | ok r =>
      simp only [ok_bind, toOption_ok, Option.bind_some]
      cases readWritten fuel n false r.2 <;> rfl

theorem MemberLead.embeds (h : MemberLead key lead) : ∃ o, EmbedsLead key lead o := by
  cases h with
  | @colon a key b ha hkey hb =>
    rcases hkey.settles with ⟨s, hs⟩ | hbroken
    · exact ⟨some s, embedsLead_text ha hs hb⟩
    · have hhead (rest : List Char) :
          ∃ e, (headToken (tokens (a ++ key ++ b ++ [':'] ++ rest))).kind = .brokenString e := by
        obtain ⟨e, he⟩ := hbroken (b ++ ':' :: rest)
        have hother : (readToken (key ++ (b ++ ':' :: rest))).kind ≠ .other := by rw [he]; nofun
        refine ⟨e, ?_⟩
        rw [tokens_lead ha, headToken_tokens, dropWhile_of_kind hother, he]
      refine ⟨none, nofun, fun rest => .inr (hhead rest), nofun, fun fuel n rest => ?_⟩
      obtain ⟨e, he⟩ := hhead rest
      rw [readWritten, nextKey_of_starts (.inr ⟨e, he⟩)]
      simp only [readKey, he, fmap_error, error_bind]
      rfl

/-- A key that stands for a string is read as this string. -/
theorem MemberLead.embeds_text {s : String} (h : MemberLead key lead) (hs : StringText s key) :
    EmbedsLead key lead (some s) := by
  cases h with
  | colon ha _ hb => exact embedsLead_text ha hs hb

/-- A member with the text behind it: either nothing is read, or the member is read and what is left is read as
further members. -/
theorem EmbedsLead.reads {o : Option String} {ov : Option Value} (hlead : EmbedsLead key lead o)
    (hv : Embeds n t ov) (hnext : EndsNumber next)
    (hf : 2 * (tokens (lead ++ (t ++ next))).length + 3 ≤ fuel + 1) :
    (readWritten (fuel + 1) n true (tokens (lead ++ (t ++ next)))).toOption =
      (o.bind fun s => ov.map fun v => (s, v)).bind fun m =>
        (readWritten fuel n false (tokens next)).toOption.map fun r => (m :: r.1, r.2) := by
  rw [hlead.member]
  cases o with
  | none => rfl
  | some s =>
    have hshorter := hlead.shorter (t ++ next) rfl
    rw [Option.bind_some, hv.value fuel next hnext (by omega)]
    cases ov <;> rfl

theorem EmbedsLead.shorter_next {o : Option String} {ov : Option Value}
    (hlead : EmbedsLead key lead o) (hv : Embeds n t ov) (hnext : EndsNumber next) (ho : o.isSome)
    (hov : ov.isSome) : (tokens next).length < (tokens (lead ++ (t ++ next))).length := by
  obtain ⟨v, rfl⟩ := Option.isSome_iff_exists.mp hov
  have hvalue := hv.value _ next hnext (Nat.le_refl _)
  have hlt := (read_shorter _).1 _ _ _ _ (toOption_eq_some.mp hvalue)
  have hle := hlead.shorter (t ++ next) ho
  omega

/-- In front of the closing brace a member is the last one. -/
theorem EmbedsLead.reads_last {o : Option String} {ov : Option Value}
    (hlead : EmbedsLead key lead o) (hv : Embeds n t ov)
    (hf : 2 * (tokens (lead ++ (t ++ '\x7d' :: rest))).length + 3 ≤ fuel) :
    (readWritten fuel n true (tokens (lead ++ (t ++ '\x7d' :: rest)))).toOption =
      (o.bind fun s => ov.map fun v => (s, v)).map fun m => ([m], tokens rest) := by
  have hclose : ('\x7d', .rightBrace) ∈ marks := by decide
  obtain ⟨fuel, rfl⟩ := Nat.exists_eq_add_of_le' (show 2 ≤ fuel by omega)
  rw [hlead.reads hv (ends_mark hclose rest) (by omega), tokens_mark hclose,
    readWritten_end rfl]
  cases o.bind fun s => ov.map fun v => (s, v) <;> rfl

/-- In front of a comma a member is the first of those that are read behind it. -/
theorem EmbedsLead.reads_more {o : Option String} {ov : Option Value}
    {r : Option (List (String × Value) × List Token)} (hlead : EmbedsLead key lead o)
    (hv : Embeds n t ov) (hstarts : StartsKey (tokens u))
    (hread : ∀ fuel, 2 * (tokens u).length + 3 ≤ fuel →
      (readWritten fuel n true (tokens u)).toOption = r)
    (hf : 2 * (tokens (lead ++ (t ++ ',' :: u))).length + 3 ≤ fuel) :
    (readWritten fuel n true (tokens (lead ++ (t ++ ',' :: u)))).toOption =
      (o.bind fun s => ov.map fun v => (s, v)).bind fun m => r.map fun p => (m :: p.1, p.2) := by
  have hcomma : (',', .comma) ∈ marks := by decide
  have hends := ends_mark hcomma u
  obtain ⟨fuel, rfl⟩ := Nat.exists_eq_add_of_le' (show 2 ≤ fuel by omega)
  rw [hlead.reads hv hends (by omega)]
  cases o with
  | none => rfl
  | some s =>
    cases ov with
    | none => rfl
    | some v =>
      have hlt := hlead.shorter_next hv hends rfl rfl
      rw [tokens_mark hcomma, List.length_cons] at hlt
      rw [tokens_mark hcomma, readWritten_next rfl hstarts, hread _ (by omega)]

/-- A text in front of the closing brace of an object, with the texts of its keys. -/
structure EmbedsMembers (n : Nat) (keys : List (List Char)) (t : List Char)
    (o : Option (List (String × Value))) : Prop where
  spells : ∀ ms, o = some ms → List.Forall₂ (fun key m => StringText m.1 key) keys ms
  starts : ∀ rest, StartsKey (tokens (t ++ rest))
  members : ∀ fuel rest, 2 * (tokens (t ++ '\x7d' :: rest)).length + 3 ≤ fuel →
    (readWritten fuel n true (tokens (t ++ '\x7d' :: rest))).toOption = o.map (·, tokens rest)

theorem EmbedsLead.last_member {o : Option String} {ov : Option Value}
    (hlead : EmbedsLead key lead o) (hv : Embeds n t ov) :
    EmbedsMembers n [key] (lead ++ t) ((o.bind fun s => ov.map fun v => (s, v)).map fun m => [m]) := by
  refine ⟨?_, fun rest => ?_, fun fuel rest hf => ?_⟩
  · intro ms hms
    cases o with
    | none => contradiction
    | some s =>
      cases ov with
      | none => contradiction
      | some v =>
        obtain rfl : [(s, v)] = ms := Option.some.inj hms
        exact .cons (hlead.spells s rfl) .nil
  · rw [List.append_assoc]
    exact hlead.starts _
  · rw [List.append_assoc] at hf ⊢
    rw [hlead.reads_last hv hf]
    cases o.bind fun s => ov.map fun v => (s, v) <;> rfl

theorem EmbedsLead.cons_members {o : Option String} {ov : Option Value}
    {os : Option (List (String × Value))} {keys : List (List Char)} (hlead : EmbedsLead key lead o)
    (hv : Embeds n t ov) (hs : EmbedsMembers n keys u os) :
    EmbedsMembers n (key :: keys) (lead ++ t ++ ',' :: u)
      ((o.bind fun s => ov.map fun v => (s, v)).bind fun m => os.map fun ms => m :: ms) := by
  have htext (rest : List Char) : lead ++ t ++ ',' :: u ++ rest = lead ++ (t ++ ',' :: (u ++ rest)) := by
    simp
  refine ⟨?_, fun rest => ?_, fun fuel rest hf => ?_⟩
  · intro ms hms
    cases o with
    | none => contradiction
    | some s =>
      cases ov with
      | none => contradiction
      | some v =>
        cases os with
        | none => contradiction
        | some more =>
          obtain rfl : (s, v) :: more = ms := Option.some.inj hms
          exact .cons (hlead.spells s rfl) (hs.spells more rfl)
  · rw [htext]
    exact hlead.starts _
  · rw [htext] at hf ⊢
    rw [hlead.reads_more hv (hs.starts _) (fun _ => hs.members _ rest) hf]
    cases o.bind fun s => ov.map fun v => (s, v) <;> cases os <;> rfl

/-- An object is read if a level is left for it. -/
theorem embeds_object (hread : ∃ o : Option (List (String × Value)), ∀ fuel rest,
      2 * (tokens (t ++ '\x7d' :: rest)).length + 3 ≤ fuel →
      (readWritten fuel n true (tokens (t ++ '\x7d' :: rest))).toOption = o.map (·, tokens rest)) :
    ∃ o, Embeds (n + 1) ('\x7b' :: t ++ ['\x7d']) o := by
  have hopen : ('\x7b', .leftBrace) ∈ marks := by decide
  have htext (rest : List Char) :
      '\x7b' :: t ++ ['\x7d'] ++ rest = '\x7b' :: (t ++ '\x7d' :: rest) := by simp
  obtain ⟨o, ho⟩ := hread
  refine ⟨o.map fun ms => .object (keptMembers ms), fun rest _ => ?_, fun fuel rest _ hf => ?_⟩
  · rw [htext]
    exact starts_of_open hopen nofun _
  · rw [htext, tokens_mark hopen, List.length_cons] at hf
    obtain ⟨fuel, rfl⟩ := Nat.exists_eq_add_of_le' (show 1 ≤ fuel by omega)
    rw [htext, tokens_mark hopen, readValue_object rfl, toOption_map, List.tail_cons,
      ho fuel rest (by omega)]
    cases o <;> rfl

theorem readWritten_blanks (ht : Blanks t) (rest : List Char) :
    readWritten (fuel + 1) n true (tokens (t ++ '\x7d' :: rest)) = .ok ([], tokens rest) := by
  have hclose : ('\x7d', .rightBrace) ∈ marks := by decide
  rw [tokens_blanks ht, tokens_mark hclose, readWritten_end rfl]
  rfl

theorem embeds_emptyObject (ht : Blanks t) : ∃ o, Embeds (n + 1) ('\x7b' :: t ++ ['\x7d']) o := by
  refine embeds_object ⟨some [], fun fuel rest hf => ?_⟩
  obtain ⟨fuel, rfl⟩ := Nat.exists_eq_add_of_le' (show 1 ≤ fuel by omega)
  rw [readWritten_blanks ht]
  rfl

/-! ## Well-formed texts -/

mutual

theorem ValueForm.embeds {t : List Char} : ValueForm t → ∀ n, ∃ o, Embeds n t o
  | .null, _ => ⟨_, embeds_scalar (v := .null) (fun _ _ => rfl) nofun nofun⟩
  | .boolean b, _ => by
    have htoken : IsToken (.boolean b) (toString b).toList := by
      cases b <;> exact fun _ _ => rfl
    exact ⟨_, embeds_scalar (v := .boolean b) htoken nofun nofun⟩
  | .number h, _ => by
    rcases h.settles with ⟨x, hx⟩ | hbroken
    · exact ⟨_, embeds_scalar (v := .number x) hx nofun nofun⟩
    · exact ⟨_, embeds_broken hbroken⟩
  | .string h, _ => by
    rcases h.settles with ⟨s, hs⟩ | hbroken
    · exact ⟨_, embeds_scalar (v := .string s) (isToken_string hs) nofun nofun⟩
    · exact ⟨_, embeds_broken (isBroken_string hbroken)⟩
  | .emptyArray _, 0 | .array _, 0 => ⟨_, embeds_deep (by decide) (.inl rfl)⟩
  | .emptyObject _, 0 | .object _, 0 => ⟨_, embeds_deep (by decide) (.inr rfl)⟩
  | .emptyArray ht, _ + 1 => embeds_emptyArray ht
  | .array h, n + 1 => by
    obtain ⟨o, ho⟩ := h.embeds n
    exact embeds_list ⟨o, ho.items⟩
  | .emptyObject ht, _ + 1 => embeds_emptyObject ht
  | .object h, n + 1 => by
    obtain ⟨o, ho⟩ := h.embeds n
    exact embeds_object ⟨o, ho.members⟩

theorem ElementForm.embeds {t : List Char} : ElementForm t → ∀ n, ∃ o, Embeds n t o
  | .spaced ha h hb, n => by
    obtain ⟨o, ho⟩ := h.embeds n
    exact ⟨o, ho.spaced ha hb⟩

theorem ItemsForm.embeds {t : List Char} : ItemsForm t → ∀ n, ∃ o, EmbedsItems n t o
  | .last h, n => by
    obtain ⟨o, ho⟩ := h.embeds n
    exact ⟨_, ho.last_item⟩
  | .more h hs, n => by
    obtain ⟨o, ho⟩ := h.embeds n
    obtain ⟨os, hos⟩ := hs.embeds n
    exact ⟨_, ho.cons_items hos⟩

theorem MembersForm.embeds {keys : List (List Char)} {t : List Char} :
    MembersForm keys t → ∀ n, ∃ o, EmbedsMembers n keys t o
  | .last hlead h, n => by
    obtain ⟨s, hs⟩ := hlead.embeds
    obtain ⟨o, ho⟩ := h.embeds n
    exact ⟨_, hs.last_member ho⟩
  | .more hlead h hmore, n => by
    obtain ⟨s, hs⟩ := hlead.embeds
    obtain ⟨o, ho⟩ := h.embeds n
    obtain ⟨os, hos⟩ := hmore.embeds n
    exact ⟨_, hs.cons_members ho hos⟩

end

end Census.Json
