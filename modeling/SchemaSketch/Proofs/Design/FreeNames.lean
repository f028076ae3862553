import Mathlib
import SchemaSketch.Proofs.Design.Names

/-!
# How a free name is found

A name that is taken gets a number. The search for it is a loop without a bound of its own: as long as the name is
taken, the stem is tried with the next number (`Design.Search`). It ends because the names that it tries are pairwise
distinct (`numbered_injective`), so that no more of them can be taken than there are names in use
(`lt_card_of_taken`).

* **One name.** `freeName` is what the loop ends with: the stem if it is free, and else the stem with the least number
  that makes it free (`named_entityName`).
* **One after the other.** Each name is added to the names in use before the next is looked for, so the names are
  pairwise distinct whatever the tables are called (`entityNames_named`), also where the stem of one table looks like
  the numbered name of another.
-/

namespace SchemaSketch.Design

/-! ## The search -/

/-- The search for a free name, as a loop: it stands at a name, `next` is the number to try next, and `tried` counts the
numbers that it still tries until it ends with `found`. -/
inductive Search (stem : String) (used : List String) : (name : String) → (next tried : Nat) → (found : String) → Prop
  | free {name : String} {next : Nat} (h : name ∉ used) : Search stem used name next 0 name
  | taken {name : String} {next tried : Nat} {found : String} (h : name ∈ used)
      (again : Search stem used (stem ++ toString next) (next + 1) tried found) :
      Search stem used name next (tried + 1) found

variable {stem : String} {used : List String}

/-- The loop has one course only. -/
theorem Search.unique {name : String} {next tried tried' : Nat} {found found' : String}
    (h : Search stem used name next tried found) (h' : Search stem used name next tried' found') :
    tried = tried' ∧ found = found' := by
  induction h generalizing tried' with
  | free hfree =>
    cases h' with
    | free _ => exact ⟨rfl, rfl⟩
    | taken htaken _ => exact absurd htaken hfree
  | taken htaken _ ih =>
    cases h' with
    | free hfree => exact absurd htaken hfree
    | taken _ again =>
      obtain ⟨rfl, rfl⟩ := ih again
      exact ⟨rfl, rfl⟩

/-- It goes through the numbers that are taken up to one that is not. -/
theorem search_numbered {next : Nat} (more : Nat) (htaken : ∀ i < more, stem ++ toString (next + i) ∈ used)
    (hfree : stem ++ toString (next + more) ∉ used) :
    Search stem used (stem ++ toString next) (next + 1) more (stem ++ toString (next + more)) := by
  induction more generalizing next with
  | zero => exact .free hfree
  | succ more ih =>
    have hlast : next + (more + 1) = next + 1 + more := Nat.add_right_comm next more 1
    rw [hlast] at hfree ⊢
    refine .taken (htaken 0 (Nat.succ_pos more)) (ih (fun i hi => ?_) hfree)
    rw [Nat.add_right_comm]
    exact htaken (i + 1) (Nat.succ_lt_succ hi)

/-! ## The number that is settled for -/

/-- All numbers before the one that `freeSuffix` settles for are taken. -/
theorem exists_freeSuffix (stem : String) (used : List String) (k rounds : Nat) :
    ∃ n ≥ k, freeSuffix stem used k rounds = stem ++ toString n ∧ ∀ m ≥ k, m < n → stem ++ toString m ∈ used := by
  induction rounds generalizing k with
  | zero => exact ⟨k, le_refl k, rfl, fun m hm hlt => absurd hlt (by omega)⟩
  | succ rounds ih =>
    rw [freeSuffix]
    split
    · next htaken =>
      obtain ⟨n, hn, heq, hbefore⟩ := ih (k + 1)
      refine ⟨n, by omega, heq, fun m hm hlt => ?_⟩
      rcases Nat.eq_or_lt_of_le hm with rfl | hm
      · exact List.contains_iff_mem.1 htaken
      · exact hbefore m hm hlt
    · exact ⟨k, le_refl k, rfl, fun m hm hlt => absurd hlt (by omega)⟩

/-- **A name that is taken gets the least number** that makes it free. -/
theorem exists_isLeast_freeName (h : stem ∈ used) :
    ∃ k, IsLeast {k | 2 ≤ k ∧ stem ++ toString k ∉ used} k ∧ freeName stem used = stem ++ toString k := by
  obtain ⟨k, hk, heq, hbefore⟩ := exists_freeSuffix stem used 2 used.length
  have hname : freeName stem used = stem ++ toString k := by
    rw [freeName, if_pos (List.contains_iff_mem.2 h), heq]
  refine ⟨k, ⟨⟨hk, hname ▸ freeName_not_mem stem used⟩, fun m hm => ?_⟩, hname⟩
  exact Nat.le_of_not_lt fun hlt => hm.2 (hbefore m hm.1 hlt)

/-- **The numbers that are taken are fewer than the names in use**, since the stem is taken too and no two of these names
are the same. -/
theorem lt_card_of_taken (h : stem ∈ used) {more : Nat} (htaken : ∀ i < more, stem ++ toString (2 + i) ∈ used) :
    more < used.toFinset.card := by
  let numbered := (Finset.range more).image fun i => stem ++ toString (2 + i)
  have hcard : numbered.card = more := by
    rw [Finset.card_image_of_injective _ fun i j hij => Nat.add_left_cancel (numbered_injective stem hij),
      Finset.card_range]
  have hstem : stem ∉ numbered := by
    intro hmem
    obtain ⟨i, -, hi⟩ := Finset.mem_image.1 hmem
    have hempty : toString (2 + i) = "" := (String.append_right_inj stem).1 (hi.trans (String.append_empty).symm)
    exact absurd (congrArg String.length hempty) (by simp)
  have hsubset : insert stem numbered ⊆ used.toFinset := by
    refine Finset.insert_subset (List.mem_toFinset.2 h) fun name hname => ?_
    obtain ⟨i, hi, rfl⟩ := Finset.mem_image.1 hname
    exact List.mem_toFinset.2 (htaken i (Finset.mem_range.1 hi))
  have hle := Finset.card_le_card hsubset
  rw [Finset.card_insert_of_notMem hstem, hcard] at hle
  exact hle

/-! ## The name of a table's entity -/

/-- What is asked of the name that a table gets when some names are in use. -/
structure Named (table : String) (used : List String) (name : String) : Prop where
  /-- the loop ends, with this name and no other, and has tried no more numbers than there are names in use -/
  search : ∃ tried ≤ used.toFinset.card, ∀ n found,
    Search (baseName table) used (baseName table) 2 n found ↔ n = tried ∧ found = name
  /-- the stem itself, if it is free -/
  stem : baseName table ∉ used → name = baseName table
  /-- otherwise the stem with the least number that makes it free -/
  least : baseName table ∈ used →
    ∃ k, IsLeast {k | 2 ≤ k ∧ baseName table ++ toString k ∉ used} k ∧ name = baseName table ++ toString k

theorem named_entityName (table : String) (used : List String) : Named table used (entityName table used) := by
  have hfree : baseName table ∉ used → entityName table used = baseName table := by
    intro h
    rw [entityName, freeName, if_neg (mt List.contains_iff_mem.1 h)]
  refine ⟨?_, hfree, exists_isLeast_freeName⟩
  obtain ⟨tried, hle, hsearch⟩ : ∃ tried ≤ used.toFinset.card,
      Search (baseName table) used (baseName table) 2 tried (entityName table used) := by
    by_cases h : baseName table ∈ used
    · obtain ⟨k, ⟨⟨hk, hlast⟩, hleast⟩, hname⟩ := exists_isLeast_freeName h
      obtain ⟨more, rfl⟩ := Nat.exists_eq_add_of_le hk
      have htaken : ∀ i < more, baseName table ++ toString (2 + i) ∈ used := by
        intro i hi
        by_contra hnot
        have := hleast ⟨Nat.le_add_right 2 i, hnot⟩
        omega
      refine ⟨more + 1, lt_card_of_taken h htaken, .taken h ?_⟩
      rw [entityName, hname]
      exact search_numbered more htaken hlast
    · refine ⟨0, Nat.zero_le _, ?_⟩
      rw [hfree h]
      exact .free h
  refine ⟨tried, hle, fun n found => ⟨fun h => h.unique hsearch, ?_⟩⟩
  rintro ⟨rfl, rfl⟩
  exact hsearch

/-! ## One name after the other -/

/-- The names that have been given are in use when the next table is named. -/
theorem entityNames_append (used front rest : List String) :
    entityNames used (front ++ rest) =
      entityNames used front ++ entityNames ((entityNames used front).reverse ++ used) rest := by
  induction front generalizing used with
  | nil => rfl
  | cons table front ih =>
    rw [List.cons_append, entityNames, entityNames, ih, List.reverse_cons, List.append_assoc]
    rfl

/-- **Each table of a list is named as it should be**, given the names in use and those given to the tables before it. Its
name, and nothing else, is in use from then on, and so no name is given twice. -/
theorem entityNames_named (used front : List String) (table : String) (rest : List String) :
    let taken := (entityNames used front).reverse ++ used
    let name := entityName table taken
    let names := entityNames used (front ++ table :: rest)
    Named table taken name ∧ names = entityNames used front ++ name :: entityNames (name :: taken) rest ∧
      names.Nodup ∧ ∀ given ∈ names, given ∉ used :=
  ⟨named_entityName _ _, entityNames_append used front (table :: rest), nodup_entityNames used _⟩

/-- The stem of the last of these is the numbered name of the second. -/
example : entityNames [] ["user", "users", "user2"] = ["User", "User2", "User22"] := by cbv

end SchemaSketch.Design
