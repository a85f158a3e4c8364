import Census.Project.Scan
import Census.Proofs.Project.Logged
/-!
Workers that share the files of a scan. Whatever they do next, a slot that is finished holds what its
own file gives, and a file is passed over only after another has failed. So the order of the moves
counts only where a file cannot be read.
-/

namespace Census

open Census.Disk (Host)

/-- Every file can be read, and these are the results of all in their order. -/
def ScansOf (h : Host) (files : List String) (scans : List FileScan) : Prop :=
  List.Forall₂ (fun f scan => (scanFile h f).result = .ok scan) files scans

variable {h : Host} {files : List String} {p : Pool}

/-! ## Moves -/

namespace Pool

/-- Some file has failed. -/
def HasFailed (p : Pool) : Prop :=
  ∃ (i : Nat) (file : String) (e : ScanError), p.slots[i]? = some ⟨file, .finished (.error e)⟩

theorem mem_failures {e : ScanError} :
    e ∈ p.failures ↔ ∃ (i : Nat) (file : String),
      p.slots[i]? = some ⟨file, .finished (.error e)⟩ := by
  rw [failures, List.mem_filterMap]
  constructor
  · rintro ⟨⟨file, stage⟩, hm, he⟩
    obtain ⟨i, hi⟩ := List.mem_iff_getElem?.mp hm
    refine ⟨i, file, ?_⟩
    rw [hi]
    unfold Slot.failure? at he
    split at he
    · simp_all
    · simp at he
  · rintro ⟨i, file, hi⟩
    exact ⟨_, List.mem_of_getElem? hi, rfl⟩

theorem failures_eq_nil_iff : p.failures = [] ↔ ¬ p.HasFailed := by
  rw [List.eq_nil_iff_forall_not_mem]
  simp only [mem_failures, HasFailed]
  constructor
  · rintro hn ⟨i, file, e, hi⟩
    exact hn e ⟨i, file, hi⟩
  · rintro hn e ⟨i, file, hi⟩
    exact hn ⟨i, file, e, hi⟩

def Enabled (p : Pool) : Move → Prop
  | .pickUp i => ∃ file, p.slots[i]? = some ⟨file, .waiting⟩
  | .finish i => ∃ file, p.slots[i]? = some ⟨file, .running⟩
  | .passOver i => p.HasFailed ∧ ∃ file, p.slots[i]? = some ⟨file, .waiting⟩

theorem next_pickUp {i : Nat} {file : String} (hi : p.slots[i]? = some ⟨file, .waiting⟩) :
    p.next h (.pickUp i) = p.put i ⟨file, .running⟩ := by
  simp [next, hi]

theorem next_finish {i : Nat} {file : String} (hi : p.slots[i]? = some ⟨file, .running⟩) :
    p.next h (.finish i) =
      { p.put i ⟨file, .finished (scanFile h file).result⟩ with
        events := p.events ++ (scanFile h file).events } := by
  simp [next, hi]

theorem next_passOver {i : Nat} {file : String} (hf : p.HasFailed)
    (hi : p.slots[i]? = some ⟨file, .waiting⟩) :
    p.next h (.passOver i) = p.put i ⟨file, .passedOver⟩ := by
  have hne : p.failures ≠ [] := fun hnil => failures_eq_nil_iff.mp hnil hf
  simp [next, hi, hne]

theorem next_of_not_enabled {m : Move} (hn : ¬ p.Enabled m) : p.next h m = p := by
  cases m with
  | pickUp i =>
    simp only [next]
    split
    · rename_i file hi
      exact absurd ⟨file, hi⟩ hn
    · rfl
  | finish i =>
    simp only [next]
    split
    · rename_i file hi
      exact absurd ⟨file, hi⟩ hn
    · rfl
  | passOver i =>
    simp only [next]
    split
    · rename_i file hi
      have hnil : p.failures = [] := failures_eq_nil_iff.mpr fun hf => hn ⟨hf, file, hi⟩
      simp [hnil]
    · rfl

def Step (h : Host) (p : Pool) (m : Move) (q : Pool) : Prop := p.Enabled m ∧ q = p.next h m

/-- Any workers at work: every move is one that can be made when it is made. -/
inductive Execution (h : Host) : Pool → List Move → Pool → Prop where
  | refl (p : Pool) : Execution h p [] p
  | tail {p q r : Pool} {moves : List Move} {m : Move} :
    Execution h p moves q → Step h q m r → Execution h p (moves ++ [m]) r

theorem getElem?_put {i : Nat} {old : Slot} (hi : p.slots[i]? = some old) (new : Slot) (j : Nat) :
    (p.put i new).slots[j]? = if i = j then some new else p.slots[j]? := by
  obtain ⟨hlt, -⟩ := List.getElem?_eq_some_iff.mp hi
  rw [put, List.getElem?_set]
  simp [hlt]

/-- What a move does: at most one slot goes on from waiting or running, to a stage that says the truth
about its file. -/
theorem next_cases (h : Host) (p : Pool) (m : Move) :
    p.next h m = p ∨ ∃ (i : Nat) (file : String) (old new : Stage) (events : List Event),
      p.slots[i]? = some ⟨file, old⟩ ∧ (old = .waiting ∨ old = .running) ∧
      (∀ r, new = .finished r → r = (scanFile h file).result) ∧
      (new = .passedOver → p.HasFailed) ∧
      p.next h m = { p.put i ⟨file, new⟩ with events := events } := by
  by_cases he : p.Enabled m
  · right
    cases m with
    | pickUp i =>
      obtain ⟨file, hi⟩ := he
      exact ⟨i, file, _, _, _, hi, Or.inl rfl, by simp, by simp, next_pickUp hi⟩
    | finish i =>
      obtain ⟨file, hi⟩ := he
      exact ⟨i, file, _, _, _, hi, Or.inr rfl, by simp [eq_comm], by simp, next_finish hi⟩
    | passOver i =>
      obtain ⟨hf, file, hi⟩ := he
      exact ⟨i, file, _, _, _, hi, Or.inl rfl, by simp, fun _ => hf, next_passOver hf hi⟩
  · exact Or.inl (next_of_not_enabled he)

/-! ## What holds after every move -/

/-- Every slot keeps its file, and tells the truth about it. -/
structure Sound (h : Host) (files : List String) (p : Pool) : Prop where
  file : ∀ i : Nat, (p.slots[i]?).map Slot.file = files[i]?
  result : ∀ (i : Nat) (file : String) (r : Except ScanError FileScan),
    p.slots[i]? = some ⟨file, .finished r⟩ → r = (scanFile h file).result
  passedOver : ∀ (i : Nat) (file : String), p.slots[i]? = some ⟨file, .passedOver⟩ → p.HasFailed

theorem sound_opened : Sound h files (opened files) := by
  constructor
  · intro i
    simp [opened, Function.comp_def]
  · intro i file r hi
    simp [opened] at hi
  · intro i file hi
    simp [opened] at hi

theorem hasFailed_put {i : Nat} {file : String} {old : Stage} (hf : p.HasFailed)
    (hi : p.slots[i]? = some ⟨file, old⟩) (hold : old = .waiting ∨ old = .running) (new : Slot) :
    (p.put i new).HasFailed := by
  obtain ⟨j, other, e, hj⟩ := hf
  refine ⟨j, other, e, ?_⟩
  rw [getElem?_put hi, if_neg, hj]
  rintro rfl
  rw [hi, Option.some.injEq, Slot.mk.injEq] at hj
  rcases hold with rfl | rfl
  · exact absurd hj.2 (by simp)
  · exact absurd hj.2 (by simp)

theorem sound_next (hs : Sound h files p) (m : Move) : Sound h files (p.next h m) := by
  rcases next_cases h p m with hsame | ⟨i, file, old, new, events, hi, hold, hnew, hpassed, hnext⟩
  · rw [hsame]
    exact hs
  · rw [hnext]
    constructor
    · intro j
      change ((p.put i ⟨file, new⟩).slots[j]?).map Slot.file = _
      rw [getElem?_put hi, ← hs.file j]
      split
      · subst j
        simp [hi]
      · rfl
    · intro j other r hj
      change (p.put i ⟨file, new⟩).slots[j]? = _ at hj
      rw [getElem?_put hi] at hj
      split at hj
      · obtain ⟨rfl, rfl⟩ := Slot.mk.inj (Option.some.inj hj)
        exact hnew r rfl
      · exact hs.result j other r hj
    · intro j other hj
      change (p.put i ⟨file, new⟩).slots[j]? = _ at hj
      rw [getElem?_put hi] at hj
      split at hj
      · obtain ⟨rfl, rfl⟩ := Slot.mk.inj (Option.some.inj hj)
        exact hasFailed_put (hpassed rfl) hi hold _
      · exact hasFailed_put (hs.passedOver j other hj) hi hold _

theorem sound_run (hs : Sound h files p) (moves : List Move) :
    Sound h files (moves.foldl (next h) p) := by
  induction moves generalizing p with
  | nil => exact hs
  | cons m ms ih => exact ih (sound_next hs m)

/-! ## What is done in the end -/

/-- Nothing is left to do with the file of a slot. -/
def SettledAt (p : Pool) (i : Nat) : Prop :=
  ∀ file stage, p.slots[i]? = some ⟨file, stage⟩ → stage ≠ .waiting ∧ stage ≠ .running

def Settled (p : Pool) : Prop := ∀ i, p.SettledAt i

theorem settledAt_next {i : Nat} (hs : p.SettledAt i) (m : Move) : (p.next h m).SettledAt i := by
  rcases next_cases h p m with hsame | ⟨j, file, old, new, events, hj, hold, -, -, hnext⟩
  · rw [hsame]
    exact hs
  · rw [hnext]
    intro other stage hi
    change (p.put j ⟨file, new⟩).slots[i]? = _ at hi
    rw [getElem?_put hj] at hi
    split at hi
    · subst j
      obtain ⟨hw, hr⟩ := hs file old hj
      rcases hold with rfl | rfl
      · exact absurd rfl hw
      · exact absurd rfl hr
    · exact hs other stage hi

theorem settledAt_run {i : Nat} (hs : p.SettledAt i) (moves : List Move) :
    (moves.foldl (next h) p).SettledAt i := by
  induction moves generalizing p with
  | nil => exact hs
  | cons m ms ih => exact ih (settledAt_next hs m)

theorem not_waiting_of_pickUp (p : Pool) (i : Nat) (file : String) :
    (p.next h (.pickUp i)).slots[i]? ≠ some ⟨file, .waiting⟩ := by
  intro hi
  by_cases he : p.Enabled (.pickUp i)
  · obtain ⟨other, hw⟩ := he
    rw [next_pickUp hw, getElem?_put hw, if_pos rfl] at hi
    simp at hi
  · rw [next_of_not_enabled he] at hi
    exact he ⟨file, hi⟩

theorem settledAt_finish {i : Nat} (hw : ∀ file, p.slots[i]? ≠ some ⟨file, .waiting⟩) :
    (p.next h (.finish i)).SettledAt i := by
  intro file stage hi
  by_cases he : p.Enabled (.finish i)
  · obtain ⟨other, hr⟩ := he
    rw [next_finish hr] at hi
    change (p.put i ⟨other, _⟩).slots[i]? = _ at hi
    rw [getElem?_put hr, if_pos rfl] at hi
    obtain ⟨rfl, rfl⟩ := Slot.mk.inj (Option.some.inj hi)
    simp
  · rw [next_of_not_enabled he] at hi
    constructor
    · rintro rfl
      exact hw file hi
    · rintro rfl
      exact he ⟨file, hi⟩

theorem settledAt_settling (p : Pool) (i : Nat) : ((settling i).foldl (next h) p).SettledAt i :=
  settledAt_finish (not_waiting_of_pickUp _ i)

/-- A run of all moves of a schedule leaves nothing to do. -/
theorem settled_allMoves (hp : Sound h files p) (s : Schedule) :
    ((s.allMoves files.length).foldl (next h) p).Settled := by
  intro i
  by_cases hi : i < files.length
  -- The moves that settle the slot are among those at the end, and no later move undoes them.
  · obtain ⟨front, back, hrange⟩ := List.append_of_mem (List.mem_range.mpr hi)
    rw [Schedule.allMoves, hrange, List.flatMap_append, List.flatMap_cons]
    simp only [List.foldl_append]
    exact settledAt_run (settledAt_settling _ i) _
  · intro file stage hslot
    have hnone := (sound_run hp (s.allMoves files.length)).file i
    rw [hslot, List.getElem?_eq_none (by omega)] at hnone
    simp at hnone

/-- Workers can go on exactly until nothing is left to do. -/
theorem settled_iff : p.Settled ↔ ∀ m, ¬ p.Enabled m := by
  constructor
  · intro hp m he
    cases m with
    | pickUp i =>
      obtain ⟨file, hi⟩ := he
      exact (hp i file _ hi).1 rfl
    | finish i =>
      obtain ⟨file, hi⟩ := he
      exact (hp i file _ hi).2 rfl
    | passOver i =>
      obtain ⟨-, file, hi⟩ := he
      exact (hp i file _ hi).1 rfl
  · intro hn i file stage hi
    constructor
    · rintro rfl
      exact hn (.pickUp i) ⟨file, hi⟩
    · rintro rfl
      exact hn (.finish i) ⟨file, hi⟩

theorem next_of_settled (hp : p.Settled) (m : Move) : p.next h m = p :=
  next_of_not_enabled (settled_iff.mp hp m)

theorem run_of_settled (hp : p.Settled) (moves : List Move) : moves.foldl (next h) p = p := by
  induction moves with
  | nil => rfl
  | cons m ms ih => rw [List.foldl_cons, next_of_settled hp, ih]

theorem Execution.run_eq {q : Pool} {moves : List Move} (he : Execution h p moves q) :
    moves.foldl (next h) p = q := by
  induction he with
  | refl => rfl
  | tail _ hstep ih => rw [List.foldl_append, ih, List.foldl_cons, List.foldl_nil, hstep.2]

/-- Whatever workers do until nothing is left to do is what they do by some schedule. -/
theorem Execution.scanTogether_eq {moves : List Move} (he : Execution h (opened files) moves p)
    (hp : p.Settled) (kept : Nat) :
    scanTogether h ⟨moves, kept⟩ files = ⟨p.events, p.outcome kept⟩ := by
  rw [scanTogether, Schedule.allMoves, List.foldl_append, he.run_eq, run_of_settled hp]

/-! ## Results -/

theorem forall₂_scans {R : String → FileScan → Prop} {slots : List Slot}
    (hs : ∀ s ∈ slots, ∃ scan, s.scan? = some scan ∧ R s.file scan) :
    List.Forall₂ R (slots.map Slot.file) (slots.filterMap Slot.scan?) := by
  induction slots with
  | nil => exact List.Forall₂.nil
  | cons s ss ih =>
    obtain ⟨scan, hscan, hr⟩ := hs s List.mem_cons_self
    rw [List.map_cons, List.filterMap_cons_some hscan]
    exact List.Forall₂.cons hr (ih fun t ht => hs t (List.mem_cons_of_mem _ ht))

/-- What comes of the files once nothing is left to do: the results of all in their order, or what has
failed for one of them. -/
theorem outcome_of_settled (hs : Sound h files p) (hp : p.Settled) (kept : Nat) :
    (∃ scans, p.outcome kept = .ok scans ∧ ScansOf h files scans) ∨
      ∃ f ∈ files, ∃ e, (scanFile h f).result = .error e ∧ p.outcome kept = .error e := by
  have hfiles : p.slots.map Slot.file = files := by
    apply List.ext_getElem?
    intro i
    rw [List.getElem?_map, hs.file]
  by_cases hf : p.HasFailed
  · right
    obtain ⟨e, es, hcons⟩ : ∃ e es, p.failures = e :: es :=
      List.exists_cons_of_ne_nil fun hnil => failures_eq_nil_iff.mp hnil hf
    have hkept : (e :: es).getD kept e ∈ p.failures := by
      rw [hcons, List.getD_eq_getElem?_getD]
      cases hk : (e :: es)[kept]? with
      | none => exact List.mem_cons_self
      | some e' => exact List.mem_of_getElem? hk
    obtain ⟨i, file, hi⟩ := mem_failures.mp hkept
    have hmem : file ∈ files := by
      apply List.mem_of_getElem? (i := i)
      rw [← hs.file, hi]
      rfl
    refine ⟨file, hmem, _, (hs.result i file _ hi).symm, ?_⟩
    rw [outcome, hcons]
  · left
    have hnil := failures_eq_nil_iff.mpr hf
    refine ⟨p.slots.filterMap Slot.scan?, by rw [outcome, hnil], ?_⟩
    have hall : ∀ s ∈ p.slots, ∃ scan, s.scan? = some scan ∧
        (scanFile h s.file).result = .ok scan := by
      rintro ⟨file, stage⟩ hm
      obtain ⟨i, hi⟩ := List.mem_iff_getElem?.mp hm
      obtain ⟨hw, hr⟩ := hp i file stage hi
      cases stage with
      | waiting => exact absurd rfl hw
      | running => exact absurd rfl hr
      | finished r =>
        cases r with
        | ok scan => exact ⟨scan, rfl, (hs.result i file _ hi).symm⟩
        | error e => exact absurd ⟨i, file, e, hi⟩ hf
      | passedOver => exact absurd (hs.passedOver i file hi) hf
    have hscans : List.Forall₂ (fun f scan => (scanFile h f).result = .ok scan)
        (p.slots.map Slot.file) (p.slots.filterMap Slot.scan?) := forall₂_scans hall
    rwa [hfiles] at hscans

end Pool

end Census
