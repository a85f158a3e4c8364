import Census.Project.Logged
import Census.Proofs.Except
import Mathlib.Data.List.Forall2
/-!
Results of steps, without what they tell. A step for every element gives a result exactly if each
element does, and else the error of the first that does not.
-/

namespace Census.Logged

variable {α β : Type}

@[simp] theorem pure_result (a : α) : (Pure.pure a : Logged α).result = .ok a := rfl

@[simp] theorem fail_result (e : ScanError) : (fail e : Logged α).result = .error e := rfl

theorem bind_result (x : Logged α) (f : α → Logged β) :
    (x >>= f).result = x.result.bind fun a => (f a).result := by
  change (Logged.bind x f).result = _
  unfold Logged.bind
  cases x.result <;> rfl

theorem bind_result_eq_ok {x : Logged α} {f : α → Logged β} {b : β} :
    (x >>= f).result = .ok b ↔ ∃ a, x.result = .ok a ∧ (f a).result = .ok b := by
  rw [bind_result]
  cases x.result <;> simp [Except.bind]

@[simp] theorem tell_bind_result (e : Event) (x : Logged α) :
    (tell e >>= fun _ => x).result = x.result := by
  rw [bind_result]
  rfl

theorem each_nil (f : α → Logged β) : each f [] = Pure.pure [] := rfl

theorem each_cons (f : α → Logged β) (a : α) (as : List α) :
    each f (a :: as) = f a >>= fun b => each f as >>= fun bs => Pure.pure (b :: bs) := rfl

theorem each_eq_ok {f : α → Logged β} {as : List α} {bs : List β} :
    (each f as).result = .ok bs ↔ List.Forall₂ (fun a b => (f a).result = .ok b) as bs := by
  induction as generalizing bs with
  | nil =>
    rw [each_nil, pure_result, List.forall₂_nil_left_iff]
    simp [eq_comm]
  | cons a as ih =>
    rw [each_cons, bind_result_eq_ok, List.forall₂_cons_left_iff]
    simp only [bind_result_eq_ok, ih, pure_result, Except.ok.injEq]
    constructor
    · rintro ⟨b, hb, bs', hbs, rfl⟩
      exact ⟨b, bs', hb, hbs, rfl⟩
    · rintro ⟨b, bs', hb, hbs, rfl⟩
      exact ⟨b, hb, bs', hbs, rfl⟩

theorem each_cons_result (f : α → Logged β) (a : α) (as : List α) :
    (each f (a :: as)).result =
      (f a).result.bind fun b => (each f as).result.map fun bs => b :: bs := by
  rw [each_cons, bind_result]
  cases (f a).result with
  | error e => rfl
  | ok b => exact bind_result _ _

theorem each_congr {f g : α → Logged β} {as : List α}
    (h : ∀ a ∈ as, (f a).result = (g a).result) : (each f as).result = (each g as).result := by
  induction as with
  | nil => rfl
  | cons a as ih =>
    rw [each_cons_result, each_cons_result, h a List.mem_cons_self,
      ih fun b hb => h b (List.mem_cons_of_mem _ hb)]

/-- Elements whose steps give nothing can be left out. -/
theorem each_filter_flatten {f : α → Logged (List β)} {p : α → Bool} {as : List α}
    (h : ∀ a ∈ as, p a = false → (f a).result = .ok []) :
    (each f (as.filter p)).result.map List.flatten = (each f as).result.map List.flatten := by
  induction as with
  | nil => rfl
  | cons a as ih =>
    have hrest := ih fun b hb => h b (List.mem_cons_of_mem _ hb)
    have hcons : ∀ (b : List β) (r : Except ScanError (List (List β))),
        (r.map fun bs => b :: bs).map List.flatten = (r.map List.flatten).map (b ++ ·) := by
      intro b r
      cases r <;> rfl
    rw [each_cons_result]
    cases hp : p a with
    | false =>
      rw [List.filter_cons_of_neg (by simp [hp]), hrest, h a List.mem_cons_self hp]
      cases (each f as).result <;> rfl
    | true =>
      rw [List.filter_cons_of_pos hp, each_cons_result]
      cases (f a).result with
      | error e => rfl
      | ok b => simp only [Except.bind, hcons, hrest]

theorem exists_ok_of_mem {f : α → Logged β} {as : List α} {bs : List β} {a : α}
    (h : (each f as).result = .ok bs) (ha : a ∈ as) : ∃ b ∈ bs, (f a).result = .ok b := by
  rw [each_eq_ok] at h
  induction h with
  | nil => exact absurd ha List.not_mem_nil
  | cons hab _ ih =>
    rcases List.mem_cons.mp ha with rfl | ha
    · exact ⟨_, List.mem_cons_self, hab⟩
    · obtain ⟨b, hb, hf⟩ := ih ha
      exact ⟨b, List.mem_cons_of_mem _ hb, hf⟩

theorem each_cons_eq_error {f : α → Logged β} {a : α} {as : List α} {e : ScanError} :
    (each f (a :: as)).result = .error e ↔
      (f a).result = .error e ∨ (∃ b, (f a).result = .ok b) ∧ (each f as).result = .error e := by
  rw [each_cons_result]
  cases (f a).result with
  | error e' => simp [Except.bind]
  | ok b => cases (each f as).result <;> simp [Except.bind]

/-- The first element that meets `Q` is the head, or it is one of the tail and the head meets `P`. -/
theorem exists_split_cons {P Q : α → Prop} {a : α} {as : List α} :
    (∃ front x back, a :: as = front ++ x :: back ∧ (∀ b ∈ front, P b) ∧ Q x) ↔
      Q a ∨ P a ∧ ∃ front x back, as = front ++ x :: back ∧ (∀ b ∈ front, P b) ∧ Q x := by
  constructor
  · rintro ⟨front, x, back, heq, hfront, hx⟩
    cases front with
    | nil =>
      obtain ⟨rfl, -⟩ := List.cons.inj heq
      exact .inl hx
    | cons b front =>
      obtain ⟨rfl, rfl⟩ := List.cons.inj heq
      rw [List.forall_mem_cons] at hfront
      exact .inr ⟨hfront.1, front, x, back, rfl, hfront.2, hx⟩
  · rintro (ha | ⟨ha, front, x, back, rfl, hfront, hx⟩)
    · exact ⟨[], a, as, rfl, nofun, ha⟩
    · exact ⟨a :: front, x, back, rfl, List.forall_mem_cons.mpr ⟨ha, hfront⟩, hx⟩

theorem each_eq_error {f : α → Logged β} {as : List α} {e : ScanError} :
    (each f as).result = .error e ↔ ∃ front a back, as = front ++ a :: back ∧
      (∀ b ∈ front, ∃ r, (f b).result = .ok r) ∧ (f a).result = .error e := by
  induction as with
  | nil => simp [each_nil]
  | cons a as ih =>
    rw [each_cons_eq_error, exists_split_cons (P := fun b => ∃ r, (f b).result = .ok r)
      (Q := fun b => (f b).result = .error e), ih]

end Census.Logged
