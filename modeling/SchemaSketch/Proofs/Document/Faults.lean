import Mathlib
import SchemaSketch.Document.Reader
import SchemaSketch.Proofs.Except

/-!
# Which faults a document can have

Nearly every step of the reader asks for a shape, and fails, if it does, with a fault of the shape
(`Shapely`): members, items, rules, fields, foreign keys and relations. Only a position can have another
fault. It is taken in pair by pair, and an item of a list that has not two parts is a fault of its own.

So it can be told of any value, without reading it, whether it is read, or its fault is reported as one of
the document: `read_or_reported_iff`.
-/

namespace SchemaSketch.Document
open Json

/-! ## Steps that ask for a shape -/

/-- A step that fails, if it does, with a fault of the shape. -/
def Shapely {α : Type} (step : Except Fault α) : Prop := ∀ fault, step = .error fault → fault.isShape = true

section

variable {α β : Type} {step : Except Fault α} {next : α → Except Fault β}

theorem shapely_ok (a : α) : Shapely (.ok a) := by rintro _ ⟨⟩

theorem Shapely.bind (hstep : Shapely step) (hnext : ∀ a, Shapely (next a)) : Shapely (step >>= next) := by
  intro fault h
  obtain h | ⟨a, -, h⟩ := Except.bind_eq_error.1 h
  · exact hstep fault h
  · exact hnext a fault h

theorem shapely_member (value : Json) (name : String) : Shapely (member value name) := by
  intro fault h
  unfold member at h
  split at h
  · split at h
    · cases h
    · cases h
      rfl
  · cases h
    rfl

theorem shapely_itemsOf (value : Json) : Shapely (itemsOf value) := by
  intro fault h
  unfold itemsOf at h
  split at h <;> cases h
  rfl

theorem shapely_readItems {read : Json → Except Fault α} (hread : ∀ v, Shapely (read v)) (value : Json) :
    Shapely (readItems read value) := by
  refine (shapely_itemsOf value).bind fun items fault h => ?_
  obtain ⟨_, item, _, -, -, h⟩ := Except.mapM_eq_error.1 h
  exact hread item fault h

/-- Of two steps, the second is to blame for a wrong length, if the first asks for a shape. -/
theorem Shapely.bind_eq_wrongLength (hstep : Shapely step) {i n : Nat} :
    step >>= next = .error (.wrongLength i n) ↔ ∃ a, step = .ok a ∧ next a = .error (.wrongLength i n) := by
  rw [Except.bind_eq_error]
  exact ⟨fun h => h.elim (fun h => (by cases hstep _ h)) id, .inr⟩

/-- Of two steps, the first is to blame for a wrong length, if the second asks for a shape. -/
theorem bind_eq_wrongLength_of_shapely (hnext : ∀ a, Shapely (next a)) {i n : Nat} :
    step >>= next = .error (.wrongLength i n) ↔ step = .error (.wrongLength i n) := by
  rw [Except.bind_eq_error]
  exact ⟨fun h => h.elim id fun ⟨a, _, h⟩ => (by cases hnext a _ h), .inl⟩

end

theorem Validation.shapely_ofJson (v : Json) : Shapely (Validation.ofJson v) :=
  (shapely_member v _).bind fun _ => shapely_ok _

theorem Field.shapely_ofJson (v : Json) : Shapely (Field.ofJson v) :=
  (shapely_member v _).bind fun _ => (shapely_readItems Validation.shapely_ofJson _).bind fun _ => shapely_ok _

theorem ForeignKey.shapely_ofJson (v : Json) : Shapely (ForeignKey.ofJson v) :=
  (shapely_member v _).bind fun _ => shapely_ok _

theorem Relation.shapely_ofJson (v : Json) : Shapely (Relation.ofJson v) :=
  (shapely_member v _).bind fun _ => (shapely_member v _).bind fun _ => (shapely_member v _).bind fun _ =>
    (shapely_member v _).bind fun _ => (ForeignKey.shapely_ofJson _).bind fun _ =>
      (shapely_itemsOf _).bind fun _ => shapely_ok _

/-! ## Positions -/

/-- A pair: two parts, the first of which can be a key. -/
def IsPair (item : Json) : Prop := ∃ key value, itemsOf item = .ok [key, value] ∧ key.isKey = true

/-- An item of some number of parts, other than two. -/
def HasParts (item : Json) (parts : Nat) : Prop := parts ≠ 2 ∧ ∃ ps, itemsOf item = .ok ps ∧ ps.length = parts

theorem pair_of_two (index : Nat) {item key value : Json} (h : itemsOf item = .ok [key, value]) :
    pair index item = if key.isKey then .ok (key, value) else .error (.notKey key) := by
  cases item <;> first | cases h; done | simp only [pair, h]

theorem pair_of_others (index : Nat) {item : Json} {parts : List Json} (h : itemsOf item = .ok parts)
    (hlength : parts.length ≠ 2) : pair index item = .error (.wrongLength index parts.length) := by
  have hmatch : ∀ key value, parts = [key, value] → False := by
    rintro key value rfl
    exact hlength rfl
  cases item <;> first | cases h; done | simp only [pair, h]

theorem pair_of_no_items (index : Nat) {item : Json} {fault : Fault} (h : itemsOf item = .error fault) :
    pair index item = .error (.notPair index) := by
  cases item <;> first | cases h; done | rfl

theorem exists_pair_eq_ok {index : Nat} {item : Json} : (∃ p, pair index item = .ok p) ↔ IsPair item := by
  cases h : itemsOf item with
  | error fault => simp [pair_of_no_items index h, IsPair, h]
  | ok parts =>
    by_cases hlength : parts.length = 2
    · obtain ⟨key, value, rfl⟩ := List.length_eq_two.1 hlength
      rw [pair_of_two index h]
      by_cases hkey : key.isKey = true <;> simp [IsPair, h, hkey]
    · rw [pair_of_others index h hlength]
      have hpair : ¬ IsPair item := by
        rintro ⟨key, value, hitems, -⟩
        obtain rfl : parts = [key, value] := Except.ok.inj (h.symm.trans hitems)
        exact hlength rfl
      simp [hpair]

theorem pair_eq_wrongLength {index i n : Nat} {item : Json} :
    pair index item = .error (.wrongLength i n) ↔ i = index ∧ HasParts item n := by
  cases h : itemsOf item with
  | error fault => simp [pair_of_no_items index h, HasParts, h]
  | ok parts =>
    by_cases hlength : parts.length = 2
    · obtain ⟨key, value, rfl⟩ := List.length_eq_two.1 hlength
      rw [pair_of_two index h]
      by_cases hkey : key.isKey = true <;> simp [HasParts, h, hkey, eq_comm]
    · rw [pair_of_others index h hlength]
      simp only [HasParts, h, Except.error.injEq, Fault.wrongLength.injEq, Except.ok.injEq, exists_eq_left']
      constructor
      · rintro ⟨rfl, rfl⟩
        exact ⟨rfl, hlength, rfl⟩
      · rintro ⟨rfl, -, rfl⟩
        exact ⟨rfl, rfl⟩

/-- A list of pairs is taken in up to the first item that has not two parts. -/
theorem placeAll_eq_wrongLength {items : List Json} {start i n : Nat} {position : List (Json × Json)} :
    placeAll start position items = .error (.wrongLength i n) ↔
      ∃ front item back, items = front ++ item :: back ∧ (∀ x ∈ front, IsPair x) ∧
        (HasParts item n ∧ i = start + front.length) := by
  induction items generalizing start position with
  | nil => simp [placeAll]
  | cons item rest ih =>
    rw [placeAll, exists_split_cons (Q := fun k item => HasParts item n ∧ i = start + k)]
    cases h : pair start item with
    | error fault =>
      have hpair : ¬ IsPair item := by
        rw [← exists_pair_eq_ok, h]
        simp
      have hparts : pair start item = .error (.wrongLength i n) ↔ i = start ∧ HasParts item n := pair_eq_wrongLength
      rw [h] at hparts
      simpa [hpair, and_comm] using hparts
    | ok p =>
      obtain ⟨key, value⟩ := p
      have hpair : IsPair item := exists_pair_eq_ok.1 ⟨_, h⟩
      have hparts : ¬ (HasParts item n ∧ i = start + 0) := by
        rintro ⟨hn, hi⟩
        have := pair_eq_wrongLength.2 ⟨hi, hn⟩
        rw [Nat.add_zero, h] at this
        cases this
      change placeAll (start + 1) _ rest = _ ↔ _
      rw [ih, or_iff_right hparts, and_iff_right hpair]
      simp only [Nat.add_assoc, Nat.add_comm 1]

/-- A position that is a list with an item that has not two parts, behind pairs only. -/
structure Misshaped (position : Json) (index parts : Nat) : Prop where
  /-- it is no object -/
  noObject : ∀ members, position ≠ .object members
  /-- the item stands behind pairs -/
  item : ∃ front item back, itemsOf position = .ok (front ++ item :: back) ∧ (∀ x ∈ front, IsPair x) ∧
    (HasParts item parts ∧ index = front.length)

theorem positionOf_of_items {position : Json} {items : List Json} (hobject : ∀ members, position ≠ .object members)
    (h : itemsOf position = .ok items) : positionOf position = placeAll 0 [] items := by
  cases position
  case object members => exact absurd rfl (hobject members)
  all_goals simp only [positionOf, h]

theorem positionOf_of_no_items {position : Json} {fault : Fault} (h : itemsOf position = .error fault) :
    positionOf position = .error fault := by
  cases position
  case object => cases h
  all_goals simp only [positionOf, h]

theorem positionOf_eq_wrongLength {position : Json} {i n : Nat} :
    positionOf position = .error (.wrongLength i n) ↔ Misshaped position i n := by
  by_cases hobject : ∃ members, position = .object members
  · obtain ⟨members, rfl⟩ := hobject
    exact ⟨fun h => (by cases h), fun h => absurd rfl (h.noObject members)⟩
  replace hobject : ∀ members, position ≠ .object members := not_exists.1 hobject
  refine Iff.trans ?_ ⟨fun h => Misshaped.mk hobject h, fun h => h.item⟩
  cases h : itemsOf position with
  | error fault =>
    rw [positionOf_of_no_items h]
    have hfault := shapely_itemsOf position fault h
    refine ⟨fun hlength => ?_, fun ⟨_, _, _, h, _⟩ => (by cases h)⟩
    obtain rfl : fault = .wrongLength i n := Except.error.inj hlength
    cases hfault
  | ok items =>
    rw [positionOf_of_items hobject h, placeAll_eq_wrongLength]
    simp only [Except.ok.injEq, Nat.zero_add]

/-! ## Documents -/

/-- An entity that could be read but for its position. -/
structure Misplaced (e : Json) (index parts : Nat) : Prop where
  /-- it has an identifier -/
  id : ∃ id, member e "id" = .ok id
  /-- it has a name -/
  name : ∃ name, member e "name" = .ok name
  /-- its fields are read -/
  fields : ∃ fields, readItems Field.ofJson (memberOr e "fields" (.array [])) = .ok fields
  /-- its position is not -/
  position : Misshaped (memberOr e "position" noPosition) index parts

theorem Entity.ofJson_eq_wrongLength {e : Json} {i n : Nat} :
    Entity.ofJson e = .error (.wrongLength i n) ↔ Misplaced e i n := by
  constructor
  · intro h
    obtain ⟨id, hid, h⟩ := (shapely_member e _).bind_eq_wrongLength.1 h
    obtain ⟨name, hname, h⟩ := (shapely_member e _).bind_eq_wrongLength.1 h
    obtain ⟨fields, hfields, h⟩ := (shapely_readItems Field.shapely_ofJson _).bind_eq_wrongLength.1 h
    have hposition := (bind_eq_wrongLength_of_shapely fun _ => shapely_ok _).1 h
    exact ⟨⟨id, hid⟩, ⟨name, hname⟩, ⟨fields, hfields⟩, positionOf_eq_wrongLength.1 hposition⟩
  · rintro ⟨⟨id, hid⟩, ⟨name, hname⟩, ⟨fields, hfields⟩, hposition⟩
    refine (shapely_member e _).bind_eq_wrongLength.2 ⟨id, hid, ?_⟩
    refine (shapely_member e _).bind_eq_wrongLength.2 ⟨name, hname, ?_⟩
    refine (shapely_readItems Field.shapely_ofJson _).bind_eq_wrongLength.2 ⟨fields, hfields, ?_⟩
    exact (bind_eq_wrongLength_of_shapely fun _ => shapely_ok _).2 (positionOf_eq_wrongLength.2 hposition)

theorem readItems_eq_wrongLength {α : Type} {read : Json → Except Fault α} {value : Json} {i n : Nat} :
    readItems read value = .error (.wrongLength i n) ↔
      ∃ front item back, itemsOf value = .ok (front ++ item :: back) ∧ (∀ x ∈ front, ∃ a, read x = .ok a) ∧
        read item = .error (.wrongLength i n) := by
  rw [readItems, (shapely_itemsOf value).bind_eq_wrongLength]
  constructor
  · rintro ⟨items, hitems, h⟩
    obtain ⟨front, item, back, rfl, hfront, hitem⟩ := Except.mapM_eq_error.1 h
    exact ⟨front, item, back, hitems, hfront, hitem⟩
  · rintro ⟨front, item, back, hitems, hfront, hitem⟩
    exact ⟨_, hitems, Except.mapM_eq_error.2 ⟨front, item, back, rfl, hfront, hitem⟩⟩

/-- A value in which the position of an entity is the first thing that cannot be read, for an item that has
not two parts. -/
def Spoilt (v : Json) (index parts : Nat) : Prop :=
  ∃ front e back, itemsOf (memberOr v "entities" (.array [])) = .ok (front ++ e :: back) ∧
    (∀ x ∈ front, ∃ entity, Entity.ofJson x = .ok entity) ∧ Misplaced e index parts

theorem ofJson_eq_wrongLength {v : Json} {i n : Nat} :
    ofJson v = .error (.wrongLength i n) ↔ (∃ members, v = .object members) ∧ Spoilt v i n := by
  by_cases hobject : ∃ members, v = .object members
  · rw [and_iff_right hobject]
    obtain ⟨members, rfl⟩ := hobject
    have hrelations (entities : List Entity) : Shapely (do
        let relations ← readItems Relation.ofJson (memberOr (.object members) "relations" (.array []))
        pure (Document.mk entities relations)) :=
      (shapely_readItems Relation.shapely_ofJson _).bind fun _ => shapely_ok _
    rw [ofJson, bind_eq_wrongLength_of_shapely hrelations, readItems_eq_wrongLength]
    simp only [Entity.ofJson_eq_wrongLength]
    rfl
  · refine ⟨fun h => ?_, fun h => absurd h.1 hobject⟩
    cases v
    case object members => exact absurd ⟨members, rfl⟩ hobject
    all_goals cases h

/-- A fault that is reported as one of the document: there is no object, or the shape is another one. -/
def Fault.OfDocument (fault : Fault) : Prop := fault = .notObject ∨ fault.isShape = true

theorem Fault.not_ofDocument_iff {fault : Fault} : ¬ fault.OfDocument ↔ ∃ i n, fault = .wrongLength i n := by
  cases fault <;> simp [OfDocument, isShape]

/-- A value is read as a document, or its fault is reported as one of the document, unless the first thing
that cannot be read is the position of an entity, for an item that has not two parts. -/
theorem read_or_reported_iff (v : Json) :
    ((∃ d, ofJson v = .ok d) ∨ ∃ fault, ofJson v = .error fault ∧ fault.OfDocument) ↔
      ¬ ∃ index parts, (∃ members, v = .object members) ∧ Spoilt v index parts := by
  simp only [← ofJson_eq_wrongLength]
  cases h : ofJson v with
  | ok d => simp
  | error fault =>
    simp only [Except.error.injEq, exists_eq_left', reduceCtorEq, exists_false, false_or]
    rw [← not_iff_not, not_not, Fault.not_ofDocument_iff]

/-- An entity with a text in the place of its position: its one character has one part. -/
def spoiltDocument : Json :=
  .object [("entities", .array [.object [("id", .string "e"), ("name", .string "E"), ("position", .string "a")]])]

theorem not_read_or_reported : ¬ ∀ v : Json,
    (∃ d, ofJson v = .ok d) ∨ ∃ fault, ofJson v = .error fault ∧ fault.OfDocument := by
  intro h
  have hread : ofJson spoiltDocument = .error (.wrongLength 0 1) := rfl
  obtain ⟨d, hd⟩ | ⟨fault, hfault, hreported⟩ := h spoiltDocument
  · rw [hread] at hd
    cases hd
  · obtain rfl : .wrongLength 0 1 = fault := Except.error.inj (hread.symm.trans hfault)
    exact Fault.not_ofDocument_iff.2 ⟨0, 1, rfl⟩ hreported

end SchemaSketch.Document
