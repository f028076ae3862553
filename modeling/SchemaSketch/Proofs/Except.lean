import Mathlib.Data.List.Forall2

/-!
# Steps that may fail

What is said of a chain of steps, or of one step taken for each item of a list, is said of the steps: a
chain succeeds if every step does, and it fails with the first that fails.
-/

namespace SchemaSketch

variable {α β ε : Type}

theorem Except.bind_eq_ok {x : Except ε α} {f : α → Except ε β} {b : β} :
    x >>= f = .ok b ↔ ∃ a, x = .ok a ∧ f a = .ok b := by
  cases x <;> simp [bind, Except.bind]

theorem Except.bind_eq_error {x : Except ε α} {f : α → Except ε β} {e : ε} :
    x >>= f = .error e ↔ x = .error e ∨ ∃ a, x = .ok a ∧ f a = .error e := by
  cases x <;> simp [bind, Except.bind]

theorem Except.map_eq_ok {x : Except ε α} {f : α → β} {b : β} : x.map f = .ok b ↔ ∃ a, x = .ok a ∧ f a = b := by
  cases x <;> simp [Except.map]

theorem Except.exists_map_eq_ok {x : Except ε α} {f : α → β} : (∃ b, x.map f = .ok b) ↔ ∃ a, x = .ok a := by
  cases x <;> simp [Except.map]

theorem Except.mapError_eq_ok {ε' : Type} {x : Except ε α} {f : ε → ε'} {a : α} : x.mapError f = .ok a ↔ x = .ok a := by
  cases x with
  | error e => exact ⟨nofun, nofun⟩
  | ok b =>
    constructor
    · rintro ⟨⟩
      rfl
    · rintro ⟨⟩
      rfl

/-- The first item of some kind, behind items of another kind, is the head, or is found behind it. -/
theorem exists_split_cons {P : α → Prop} {Q : Nat → α → Prop} {x : α} {l : List α} :
    (∃ front a back, x :: l = front ++ a :: back ∧ (∀ y ∈ front, P y) ∧ Q front.length a) ↔
      Q 0 x ∨ P x ∧ ∃ front a back, l = front ++ a :: back ∧ (∀ y ∈ front, P y) ∧ Q (front.length + 1) a := by
  constructor
  · rintro ⟨front, a, back, hl, hfront, ha⟩
    cases front with
    | nil =>
      obtain ⟨rfl, rfl⟩ := List.cons.inj hl
      exact .inl ha
    | cons y front =>
      obtain ⟨rfl, rfl⟩ := List.cons.inj hl
      obtain ⟨hx, hfront⟩ := List.forall_mem_cons.1 hfront
      exact .inr ⟨hx, front, a, back, rfl, hfront, ha⟩
  · rintro (hx | ⟨hx, front, a, back, rfl, hfront, ha⟩)
    · exact ⟨[], x, l, rfl, fun _ h => absurd h List.not_mem_nil, hx⟩
    · exact ⟨x :: front, a, back, rfl, List.forall_mem_cons.2 ⟨hx, hfront⟩, ha⟩

/-- What comes of a list is what comes of its items. -/
theorem Except.mem_iff_of_mapM_eq_ok {f : α → Except ε β} {l : List α} {bs : List β} (h : l.mapM f = .ok bs) {b : β} :
    b ∈ bs ↔ ∃ a ∈ l, f a = .ok b := by
  induction l generalizing bs with
  | nil =>
    cases h
    simp
  | cons x l ih =>
    rw [List.mapM_cons] at h
    obtain ⟨first, hfirst, h⟩ := Except.bind_eq_ok.1 h
    obtain ⟨more, hmore, h⟩ := Except.bind_eq_ok.1 h
    cases h
    simp only [List.mem_cons, ih hmore, exists_eq_or_imp, hfirst, Except.ok.injEq, @eq_comm _ b first]

/-- A step that is taken along a list succeeds if it does so for each item. -/
theorem Except.exists_mapM_eq_ok {f : α → Except ε β} {l : List α} :
    (∃ bs, l.mapM f = .ok bs) ↔ ∀ a ∈ l, ∃ b, f a = .ok b := by
  induction l with
  | nil => exact ⟨fun _ _ h => absurd h List.not_mem_nil, fun _ => ⟨[], rfl⟩⟩
  | cons x l ih =>
    rw [List.forall_mem_cons, ← ih]
    simp only [List.mapM_cons, Except.bind_eq_ok]
    constructor
    · rintro ⟨_, b, hb, bs, hbs, -⟩
      exact ⟨⟨b, hb⟩, bs, hbs⟩
    · rintro ⟨⟨b, hb⟩, bs, hbs⟩
      exact ⟨b :: bs, b, hb, bs, hbs, rfl⟩

/-- A step that is taken along a list fails at the first item for which it fails. -/
theorem Except.mapM_eq_error {f : α → Except ε β} {l : List α} {e : ε} :
    l.mapM f = .error e ↔
      ∃ front a back, l = front ++ a :: back ∧ (∀ x ∈ front, ∃ b, f x = .ok b) ∧ f a = .error e := by
  induction l with
  | nil => exact ⟨fun h => (by cases h), fun ⟨_, _, _, h, _⟩ => by simp at h⟩
  | cons x l ih =>
    rw [List.mapM_cons, Except.bind_eq_error, exists_split_cons (Q := fun _ a => f a = .error e), ← ih]
    refine or_congr_right ⟨?_, ?_⟩
    · rintro ⟨b, hx, h⟩
      obtain h | ⟨_, -, ⟨⟩⟩ := Except.bind_eq_error.1 h
      exact ⟨⟨b, hx⟩, h⟩
    · rintro ⟨⟨b, hx⟩, h⟩
      exact ⟨b, hx, Except.bind_eq_error.2 (.inl h)⟩

/-- What comes of a list depends on what comes of each item. -/
theorem Except.flatMap_mapM_congr {γ : Type} {f : α → Except ε β} (g : β → List γ) {x y : α}
    (h : (f x).toOption.map g = (f y).toOption.map g) (front back : List α) :
    ((front ++ x :: back).mapM f).toOption.map (·.flatMap g) =
      ((front ++ y :: back).mapM f).toOption.map (·.flatMap g) := by
  have hcons : ∀ (a : α) (l : List α), ((a :: l).mapM f).toOption.map (·.flatMap g) =
      ((f a).toOption.map g).bind fun first => ((l.mapM f).toOption.map (·.flatMap g)).map (first ++ ·) := by
    intro a l
    rw [List.mapM_cons]
    cases f a with
    | error => rfl
    | ok b => cases l.mapM f <;> rfl
  induction front with
  | nil => rw [List.nil_append, List.nil_append, hcons, hcons, h]
  | cons a front ih => rw [List.cons_append, List.cons_append, hcons, hcons, ih]

/-! ## Checks -/

/-- A check along a list succeeds if it succeeds everywhere. -/
theorem Except.forM_eq_ok {check : α → Except ε Unit} {l : List α} :
    l.forM check = .ok () ↔ ∀ a ∈ l, check a = .ok () := by
  induction l with
  | nil => exact ⟨fun _ _ h => absurd h List.not_mem_nil, fun _ => rfl⟩
  | cons x l ih =>
    rw [List.forall_mem_cons, ← ih]
    exact Except.bind_eq_ok.trans ⟨fun ⟨_, hx, h⟩ => ⟨hx, h⟩, fun ⟨hx, h⟩ => ⟨(), hx, h⟩⟩

/-- A check along a list fails for what is wrong with the first element where it fails. -/
theorem Except.forM_eq_error {check : α → Except ε Unit} {l : List α} {e : ε} :
    l.forM check = .error e ↔
      ∃ front a back, l = front ++ a :: back ∧ (∀ x ∈ front, check x = .ok ()) ∧ check a = .error e := by
  induction l with
  | nil => exact ⟨fun h => (by cases h), fun ⟨_, _, _, h, _⟩ => by simp at h⟩
  | cons x l ih =>
    rw [exists_split_cons (Q := fun _ a => check a = .error e), ← ih]
    exact Except.bind_eq_error.trans (or_congr_right ⟨fun ⟨_, hx, h⟩ => ⟨hx, h⟩, fun ⟨hx, h⟩ => ⟨(), hx, h⟩⟩)

end SchemaSketch
