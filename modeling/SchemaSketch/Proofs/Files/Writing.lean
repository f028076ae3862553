import Mathlib
import SchemaSketch.Files.Tree
import SchemaSketch.Proofs.Except

/-!
# Writing a file

What is written at a path is found at it (`Files.find?_write`). A path is walked name by name, back up as well
as down, so the proof follows the walk: each place on the way is a folder before the file is put in, a folder
stays a folder when a file is put in where no folder was (`FileTree.exists_folder_put`), and so the walk
comes to the same places in the new tree.
-/

namespace SchemaSketch

namespace FileTree

/-! ## Chains of names -/

/-- What stands at the end of a chain of names. -/
def at? : List String → FileTree → Option FileTree
  | [], t => some t
  | name :: rest, t => (child? name t.entries).bind (at? rest)

theorem at?_append (front back : List String) (t : FileTree) :
    at? (front ++ back) t = (at? front t).bind (at? back) := by
  induction front generalizing t with
  | nil => rfl
  | cons name front ih =>
    rw [List.cons_append, at?, at?, Option.bind_assoc]
    exact Option.bind_congr fun u _ => ih u

/-- What is put in is there. -/
theorem at?_put (new : FileTree) (chain : List String) (t : FileTree) : at? chain (put new chain t) = some new := by
  induction chain generalizing t with
  | nil => rfl
  | cons name rest ih =>
    rw [put, at?, entries, child?_setChild_self]
    exact ih _

/-- A folder stays a folder when something is put in where no folder was. -/
theorem exists_folder_put {new : FileTree} {chain : List String} {t : FileTree}
    (hchain : ∀ es, at? chain t ≠ some (.folder es)) {other : List String} {es : List (String × FileTree)}
    (hother : at? other t = some (.folder es)) : ∃ es', at? other (put new chain t) = some (.folder es') := by
  induction chain generalizing t other with
  | nil =>
    -- nothing is at the top but a file, and below a file there is nothing
    cases other with
    | nil => exact absurd hother (hchain es)
    | cons name rest =>
      cases t with
      | file bytes => cases hother
      | folder es => exact absurd rfl (hchain es)
  | cons name chain ih =>
    cases other with
    | nil => exact ⟨_, rfl⟩
    | cons first other =>
      rw [put, at?, entries]
      by_cases hfirst : first = name
      · subst hfirst
        obtain ⟨u, hu, hother⟩ := Option.bind_eq_some_iff.1 hother
        rw [child?_setChild_self, hu]
        refine ih (fun es hes => hchain es ?_) hother
        rw [at?, hu]
        exact hes
      · rw [child?_setChild_of_ne hfirst]
        exact ⟨es, hother⟩

end FileTree

open FileTree

namespace Files

/-! ## Places -/

/-- A place in a tree: its names lead down to it from the top, through the folders above it. -/
inductive Place.In (root : FileTree) : Place → Prop where
  | top : Place.In root ⟨root, []⟩
  | down {here t : FileTree} {above : List (String × FileTree)} {name : String} (hup : Place.In root ⟨here, above⟩)
    (hchild : child? name here.entries = some t) : Place.In root ⟨t, (name, here) :: above⟩

theorem Place.names_down (t here : FileTree) (above : List (String × FileTree)) (name : String) :
    Place.names ⟨t, (name, here) :: above⟩ = Place.names ⟨here, above⟩ ++ [name] :=
  List.reverse_cons

variable {root root' : FileTree} {p p' q : Place} {name : String} {names : List String}

theorem Place.In.at?_names (h : p.In root) : at? p.names root = some p.here := by
  induction h with
  | top => rfl
  | down _ hchild ih =>
    rw [Place.names_down, at?_append, ih, Option.bind_some, at?, hchild]
    rfl

/-- A step of a walk, which is made in a folder: staying, going up or going down. -/
inductive Place.Step : Place → String → Place → Prop where
  | stay {es above : List (String × FileTree)} {name : String} (hname : name = "" ∨ name = ".") :
    Place.Step ⟨.folder es, above⟩ name ⟨.folder es, above⟩
  | top {es : List (String × FileTree)} : Place.Step ⟨.folder es, []⟩ ".." ⟨.folder es, []⟩
  | up {es above : List (String × FileTree)} {name : String} {here : FileTree} :
    Place.Step ⟨.folder es, (name, here) :: above⟩ ".." ⟨here, above⟩
  | down {es above : List (String × FileTree)} {name : String} {t : FileTree} (hname : name ∉ ["", ".", ".."])
    (hchild : child? name es = some t) : Place.Step ⟨.folder es, above⟩ name ⟨t, (name, .folder es) :: above⟩

theorem Place.step_eq_ok : p.step name = .ok q ↔ Place.Step p name q := by
  constructor
  · intro h
    obtain ⟨here, above⟩ := p
    cases here with
    | file bytes => cases h
    | folder es =>
      simp only [Place.step] at h
      split at h
      · next hname =>
        cases h
        exact .stay (by simpa using hname)
      · next hname =>
        split at h
        · next hup =>
          obtain rfl := beq_iff_eq.1 hup
          cases above <;> cases h
          · exact .top
          · exact .up
        · next hup =>
          cases hchild : child? name es with
          | none =>
            rw [hchild] at h
            cases h
          | some t =>
            rw [hchild] at h
            cases h
            exact .down (by simp_all) hchild
  · intro h
    cases h with
    | stay hname => simp [Place.step, hname]
    | top => rfl
    | up => rfl
    | down hname hchild =>
      have hstay : (name == "" || name == ".") = false := by simp_all
      have hup : (name == "..") = false := by simp_all
      simp [Place.step, hstay, hup, hchild]

theorem Place.Step.exists_folder (h : Place.Step p name q) : ∃ es, p.here = .folder es := by
  cases h <;> exact ⟨_, rfl⟩

theorem Place.Step.in_root (h : Place.Step p name q) (hp : p.In root) : q.In root := by
  cases h with
  | stay | top => exact hp
  | up =>
    cases hp with
    | down hup _ => exact hup
  | down _ hchild => exact .down hp hchild

/-- A step can be made in another tree, from the place of the same names, if there is a folder, and something
where the step goes. -/
theorem Place.Step.exists_step (h : Place.Step p name q) (hp' : p'.In root') (hnames : p'.names = p.names)
    {es' : List (String × FileTree)} (hhere : p'.here = .folder es') (hq : (at? q.names root').isSome) :
    ∃ q', Place.Step p' name q' ∧ q'.names = q.names := by
  obtain ⟨_, above'⟩ := p'
  obtain rfl : _ = FileTree.folder es' := hhere
  cases h with
  | stay hname => exact ⟨_, .stay hname, hnames⟩
  | top =>
    obtain rfl : above' = [] := by simpa [Place.names] using hnames
    exact ⟨_, .top, rfl⟩
  | up =>
    cases above' with
    | nil => simp [Place.names] at hnames
    | cons entry above' =>
      obtain ⟨n, up⟩ := entry
      rw [Place.names_down, Place.names_down] at hnames
      exact ⟨_, .up, (List.append_inj' hnames rfl).1⟩
  | down hname hchild =>
    rw [Place.names_down, ← hnames, at?_append, hp'.at?_names, Option.bind_some] at hq
    obtain ⟨t', ht'⟩ := Option.isSome_iff_exists.1 hq
    obtain ⟨t', hchild', -⟩ := Option.bind_eq_some_iff.1 ht'
    refine ⟨_, .down hname hchild', ?_⟩
    rw [Place.names_down, Place.names_down, hnames]

/-- What stands below a place under a name is where a step down goes. -/
theorem Place.In.exists_step_down {t : FileTree} (hp : p.In root) (hname : name ∉ ["", ".", ".."])
    (h : at? (p.names ++ [name]) root = some t) : ∃ q, p.step name = .ok q ∧ q.here = t := by
  rw [at?_append, hp.at?_names, Option.bind_some] at h
  obtain ⟨u, hchild, hu⟩ := Option.bind_eq_some_iff.1 h
  obtain rfl : u = t := Option.some.inj hu
  obtain ⟨here, above⟩ := p
  cases here with
  | file bytes => cases hchild
  | folder es => exact ⟨_, Place.step_eq_ok.2 (.down hname hchild), rfl⟩

/-! ## Walks -/

theorem exists_folder_of_walk {es : List (String × FileTree)} (h : names.foldlM Place.step p = .ok q)
    (hq : q.here = .folder es) : ∃ es, p.here = .folder es := by
  cases names with
  | nil =>
    obtain rfl : p = q := Except.ok.inj h
    exact ⟨es, hq⟩
  | cons name names =>
    obtain ⟨r, hr, -⟩ := Except.bind_eq_ok.1 h
    exact (Place.step_eq_ok.1 hr).exists_folder

theorem Place.In.walk (hp : p.In root) (h : names.foldlM Place.step p = .ok q) : q.In root := by
  induction names generalizing p with
  | nil =>
    obtain rfl : p = q := Except.ok.inj h
    exact hp
  | cons name names ih =>
    obtain ⟨r, hr, hrest⟩ := Except.bind_eq_ok.1 h
    exact ih ((Place.step_eq_ok.1 hr).in_root hp) hrest

/-- A walk to a folder is a walk in every tree that has the folders of the first, and comes to the same names. -/
theorem exists_walk {es : List (String × FileTree)} (hp : p.In root) (hp' : p'.In root') (hnames : p'.names = p.names)
    (hkeep : ∀ chain es, at? chain root = some (.folder es) → ∃ es', at? chain root' = some (.folder es'))
    (h : names.foldlM Place.step p = .ok q) (hq : q.here = .folder es) :
    ∃ q', names.foldlM Place.step p' = .ok q' ∧ q'.names = q.names := by
  induction names generalizing p p' with
  | nil =>
    obtain rfl : p = q := Except.ok.inj h
    exact ⟨p', rfl, hnames⟩
  | cons name names ih =>
    obtain ⟨r, hr, hrest⟩ := Except.bind_eq_ok.1 h
    have hstep := Place.step_eq_ok.1 hr
    have hin := hstep.in_root hp
    obtain ⟨here, hhere⟩ := hstep.exists_folder
    obtain ⟨there, hthere⟩ := exists_folder_of_walk hrest hq
    obtain ⟨here', hhere'⟩ := hkeep p.names here (hhere ▸ hp.at?_names)
    obtain ⟨there', hthere'⟩ := hkeep r.names there (hthere ▸ hin.at?_names)
    rw [← hnames, hp'.at?_names] at hhere'
    obtain ⟨r', hstep', hnames'⟩ :=
      hstep.exists_step hp' hnames (Option.some.inj hhere') (hthere' ▸ rfl)
    obtain ⟨q', hrest', hq'⟩ := ih hin (hstep'.in_root hp') hnames' hrest
    exact ⟨q', Except.bind_eq_ok.2 ⟨r', Place.step_eq_ok.2 hstep', hrest'⟩, hq'⟩

/-! ## Targets -/

variable {files files' : Files} {path : String} {chain : List String}

theorem target_eq_ok {folder : Place} {last : String} {slash : Bool} (h : target folder last slash = .ok chain) :
    slash = false ∧ last ∉ ["", ".", ".."] ∧
      ∃ es, folder.here = .folder es ∧ (∀ inner, child? last es ≠ some (.folder inner)) ∧
        chain = folder.names ++ [last] := by
  unfold target at h
  split at h
  · cases h
  · next es hhere =>
    split at h
    · cases h
    · next hlast =>
      split at h
      · cases h
      · next hchild =>
        cases h
        simp only [Bool.or_eq_true, beq_iff_eq, not_or, Bool.not_eq_true] at hlast
        obtain ⟨⟨⟨hslash, hempty⟩, hpoint⟩, hup⟩ := hlast
        exact ⟨hslash, by simp [hempty, hpoint, hup], es, hhere, hchild, rfl⟩

/-- What is written at a path goes to the folder that all of its names but the last lead to, where no folder
has the last name. -/
theorem targetOf_eq_ok (h : files.targetOf path = .ok chain) :
    path.isEmpty = false ∧ ∃ names last folder es, files.route path = names ++ [last] ∧ last ∉ ["", ".", ".."] ∧
      files.walk names = .ok folder ∧ folder.here = .folder es ∧ (∀ inner, child? last es ≠ some (.folder inner)) ∧
      chain = folder.names ++ [last] := by
  unfold targetOf at h
  split at h
  · cases h
  next hpath =>
  split at h
  · cases h
  dsimp only at h
  split at h
  · cases h
  next last hkept =>
  obtain ⟨folder, hwalk, htarget⟩ := Except.bind_eq_ok.1 h
  obtain ⟨hslash, hlast, es, hhere, hchild, rfl⟩ := target_eq_ok htarget
  -- no empty name was left out at the end, so what is kept is the route
  have hall : ((files.route path).reverse.dropWhile (·.isEmpty)).reverse = files.route path := by
    have hsuffix := List.dropWhile_suffix (l := (files.route path).reverse) (·.isEmpty)
    rw [hsuffix.eq_of_length (by simpa using hslash), List.reverse_reverse]
  rw [hall] at hkept hwalk
  exact ⟨by simpa using hpath, _, last, folder, es, (List.dropLast_append_getLast? last hkept).symm, hlast, hwalk,
    hhere, hchild, rfl⟩

/-! ## Writing and finding -/

/-- What is written at a path is found at it. -/
theorem find?_write {bytes : List UInt8} (h : files.write path bytes = .ok files') :
    files'.find? path = some (.file bytes) := by
  obtain ⟨chain, htarget, rfl⟩ := Except.map_eq_ok.1 h
  obtain ⟨hpath, names, last, folder, es, hroute, hlast, hwalk, hhere, hchild, rfl⟩ := targetOf_eq_ok htarget
  have hstart : Place.In files.root ⟨files.root, []⟩ := .top
  have hin : folder.In files.root := hstart.walk hwalk
  have hnone : ∀ inner, at? (folder.names ++ [last]) files.root ≠ some (.folder inner) := by
    intro inner hinner
    rw [at?_append, hin.at?_names, hhere, Option.bind_some] at hinner
    obtain ⟨t, ht, hinner⟩ := Option.bind_eq_some_iff.1 hinner
    obtain rfl : t = .folder inner := Option.some.inj hinner
    exact hchild inner ht
  obtain ⟨root', hroot'⟩ : ∃ root', put (.file bytes) (folder.names ++ [last]) files.root = root' := ⟨_, rfl⟩
  have hput : at? (folder.names ++ [last]) root' = some (.file bytes) := hroot' ▸ at?_put _ _ _
  have hkeep : ∀ other es, at? other files.root = some (.folder es) → ∃ es', at? other root' = some (.folder es') := by
    intro other es hother
    rw [← hroot']
    exact exists_folder_put hnone hother
  have htop : Place.In root' ⟨root', []⟩ := .top
  obtain ⟨folder', hwalk', hnames'⟩ := exists_walk hstart htop rfl hkeep hwalk hhere
  rw [← hnames'] at hput
  obtain ⟨q, hstep, hq⟩ := (htop.walk hwalk').exists_step_down hlast hput
  have hfound : Files.walk ⟨root', files.home⟩ (names ++ [last]) = .ok q := by
    rw [walk, List.foldlM_append]
    exact Except.bind_eq_ok.2 ⟨folder', hwalk', Except.bind_eq_ok.2 ⟨q, hstep, rfl⟩⟩
  rw [hroot', find?, hpath]
  change (Files.walk ⟨root', files.home⟩ (files.route path)).toOption.map _ = _
  rw [hroute, hfound, ← hq]
  rfl

end Files
end SchemaSketch
