import Mathlib
import SchemaSketch.Cli.Invocation
import SchemaSketch.Proofs.Text.Pattern

/-!
# Values behind an equals sign

Whatever the value is, an option takes it when it is glued to the option's name with an equals sign, even a
value that begins with dashes. So every path and every name of a project can be asked for.
-/

namespace SchemaSketch.Cli
open Text

namespace Grammar

variable {κ : Type} {g : Grammar κ} {rule : Rule κ} {name value : String}

/-- An argument that is the name of an option, an equals sign and a value. -/
def equated (name value : String) : String := name ++ "=" ++ value

theorem toList_equated (name value : String) : (equated name value).toList = name.toList ++ '=' :: value.toList := by
  simp [equated]

theorem takeWhile_equated (hname : '=' ∉ name.toList) :
    (equated name value).toList.takeWhile (· != '=') = name.toList := by
  rw [toList_equated]
  refine takeWhile_append_cons (fun c hc => ?_) rfl _
  rw [bne_iff_ne]
  rintro rfl
  exact hname hc

/-- No option has an equals sign in its name. -/
def Unequated (g : Grammar κ) : Prop := ∀ entry ∈ g.named, '=' ∉ entry.1.toList

theorem rule?_equated (hg : g.Unequated) : g.rule? (equated name value).toList = none := by
  have hnone : g.named.find? (·.1.toList == (equated name value).toList) = none := by
    refine List.find?_eq_none.2 fun entry hentry hequal => hg entry hentry ?_
    rw [beq_iff_eq.1 hequal, toList_equated]
    simp
  rw [rule?, hnone]
  rfl

theorem beforeEquals?_equated (hname : '=' ∉ name.toList) :
    g.beforeEquals? (equated name value).toList
      = (g.rule? name.toList).map fun r => .option r name (some ⟨true, value.toList⟩) := by
  unfold beforeEquals?
  simp only [takeWhile_equated hname]
  rw [toList_equated, List.drop_left]
  simp

theorem exists_of_isLong (h : isLong name.toList = true) : ∃ rest, name.toList = '-' :: '-' :: rest :=
  ⟨name.toList.drop 2, by rw [← List.take_append_drop 2 name.toList, beq_iff_eq.1 h]; rfl⟩

theorem isLong_equated (h : isLong name.toList = true) : isLong (equated name value).toList = true := by
  obtain ⟨rest, hrest⟩ := exists_of_isLong h
  rw [toList_equated, hrest]
  rfl

theorem slot_equated (hlong : isLong name.toList = true) :
    g.slot (equated name value) = g.dashedSlot (equated name value) := by
  obtain ⟨rest, hrest⟩ := exists_of_isLong hlong
  unfold slot
  rw [toList_equated, hrest]
  rfl

/-- The option of a name takes the value. -/
theorem slot_of_rule (hg : g.Unequated) (hlong : isLong name.toList = true) (hname : '=' ∉ name.toList)
    (hrule : g.rule? name.toList = some rule) :
    g.slot (equated name value) = .ok (.option rule name (some ⟨true, value.toList⟩)) := by
  rw [slot_equated hlong, dashedSlot, rule?_equated hg, beforeEquals?_equated hname, hrule]
  rfl

/-- A grammar lets an argument pass when none of its options begins like it. -/
theorem exists_slot (hg : g.Unequated) (hlong : isLong name.toList = true) (hname : '=' ∉ name.toList)
    (hbegin : ∀ entry ∈ g.named, name.toList.isPrefixOf entry.1.toList = false) :
    ∃ slot, g.slot (equated name value) = .ok slot := by
  have hfind : g.named.find? (·.1.toList == name.toList) = none := by
    refine List.find?_eq_none.2 fun entry hentry hequal => ?_
    have hself := hbegin entry hentry
    rw [beq_iff_eq.1 hequal, List.isPrefixOf_iff_prefix.2 (List.prefix_refl _)] at hself
    cases hself
  have hrule : g.rule? name.toList = none := by rw [rule?, hfind]; rfl
  have hfilter : g.named.filter (fun entry => name.toList.isPrefixOf entry.1.toList) = [] :=
    List.filter_eq_nil_iff.2 fun entry hentry => by simp [hbegin entry hentry]
  have hcandidates : g.candidates (equated name value).toList = [] := by
    rw [candidates, if_pos (isLong_equated hlong)]
    simp only [takeWhile_equated hname]
    rw [hfilter]
    rfl
  rw [slot_equated hlong, dashedSlot, rule?_equated hg, beforeEquals?_equated hname, hrule]
  simp only [Option.map_none, hcandidates]
  exact ⟨_, rfl⟩

/-! ## Readings -/

theorem cluster_of_hasValue (hvalue : rule.takes.hasValue = true) (long equals : Bool) (cs : List Char) :
    g.cluster rule long equals cs = .ok ⟨[⟨rule, String.ofList cs⟩], none, []⟩ := by
  cases cs <;> simp [cluster, hvalue]

theorem scan_equated {r : Reading κ} (hended : r.ended? = none) (htakes : rule.takes = .text) (argument : String)
    (rest : List (String × Slot κ)) :
    g.scan r ((argument, .option rule name (some ⟨true, value.toList⟩)) :: rest)
      = g.scan { r with uses := r.uses ++ [⟨rule, value⟩] } rest := by
  have hcluster : g.clusterOf rule name (some ⟨true, value.toList⟩) = .ok ⟨[⟨rule, value⟩], none, []⟩ := by
    rw [clusterOf, cluster_of_hasValue (by rw [htakes]; rfl), String.ofList_toList]
  have haccept : Reading.accept r ⟨rule, value⟩ = .ok { r with uses := r.uses ++ [⟨rule, value⟩] } := by
    rw [Reading.accept, hended]
    simp [htakes]
  rw [scan, hcluster]
  change ([Use.mk rule value].foldlM Reading.accept (r.withExtras []) >>= _) = _
  have hextras : r.withExtras [] = r := by rw [Reading.withExtras, List.append_nil]
  rw [hextras, List.foldlM_cons, haccept]
  change (if r.ended?.isSome then _ else _) = _
  rw [hended]
  rfl

end Grammar

/-- An option that is used by a long name. -/
structure Setting (κ : Type) where
  /-- the name -/
  name : String
  /-- the option and its value -/
  use : Use κ

/-- The argument of a setting. -/
def Setting.argument {κ : Type} (t : Setting κ) : String := Grammar.equated t.name t.use.value

/-- What a setting is, seen alone. -/
def Setting.slot {κ : Type} (t : Setting κ) : Slot κ := .option t.use.rule t.name (some ⟨true, t.use.value.toList⟩)

/-- A grammar knows a setting: its option has the name, and takes a text. -/
structure Grammar.Knows {κ : Type} (g : Grammar κ) (t : Setting κ) : Prop where
  /-- the name is a long one -/
  long : isLong t.name.toList = true
  /-- the name has no equals sign -/
  plain : '=' ∉ t.name.toList
  /-- the name is the option's -/
  rule : g.rule? t.name.toList = some t.use.rule
  /-- the option takes a text -/
  takes : t.use.rule.takes = .text

namespace Grammar

variable {κ : Type} {g : Grammar κ} {settings : List (Setting κ)}

theorem argument_ne_dashes (t : Setting κ) : t.argument ≠ "--" := by
  intro h
  have hmem : '=' ∈ t.argument.toList := by simp [Setting.argument, toList_equated]
  rw [h] at hmem
  exact absurd hmem (by decide)

theorem slots_arguments (hg : g.Unequated) (h : ∀ t ∈ settings, g.Knows t) :
    g.slots (settings.map Setting.argument) = .ok (settings.map fun t => (t.argument, t.slot)) := by
  induction settings with
  | nil => rfl
  | cons t settings ih =>
    obtain ⟨ht, hrest⟩ := List.forall_mem_cons.1 h
    rw [List.map_cons, slots, if_neg (by simp [argument_ne_dashes]), ih hrest, Setting.argument,
      slot_of_rule hg ht.long ht.plain ht.rule]
    rfl

theorem scan_settings {r : Reading κ} (hended : r.ended? = none) (h : ∀ t ∈ settings, g.Knows t) :
    g.scan r (settings.map fun t => (t.argument, t.slot))
      = .ok { r with uses := r.uses ++ settings.map Setting.use } := by
  induction settings generalizing r with
  | nil => simp [scan]
  | cons t settings ih =>
    obtain ⟨ht, hrest⟩ := List.forall_mem_cons.1 h
    have hnext : Reading.ended? { r with uses := r.uses ++ [t.use] } = none := hended
    rw [List.map_cons, Setting.slot, scan_equated hended ht.takes, ih hnext hrest]
    simp

/-- Settings are read as what they set, if nothing is missing. -/
theorem read_settings [DecidableEq κ] (hg : g.Unequated) (h : ∀ t ∈ settings, g.Knows t)
    (hmissing : g.missing ⟨settings.map Setting.use, [], none, none⟩ = []) :
    g.read (settings.map Setting.argument) = .ok ⟨settings.map Setting.use, [], none, none⟩ := by
  rw [read, slots_arguments hg h]
  change (g.scan ⟨[], [], none, none⟩ _ >>= _) = _
  rw [scan_settings rfl h]
  change (if _ then _ else _) = _
  rw [List.nil_append, hmissing]
  rfl

end Grammar

/-! ## Asking for a script -/

namespace Invocation

/-- The setting of a source. -/
def sourceSetting (path : String) : Setting Key := ⟨"--source", ⟨⟨.source, ["--source"], .text, true⟩, path⟩⟩

/-- The setting of the name of a project. -/
def projectSetting (project : String) : Setting Key :=
  ⟨"--project-name", ⟨rule .projectName "--project-name" .text, project⟩⟩

theorem unequated_programGrammar : programGrammar.Unequated := by
  unfold Grammar.Unequated
  decide

theorem unequated_exportGrammar : exportGrammar.Unequated := by
  unfold Grammar.Unequated
  decide

theorem knows_sourceSetting (path : String) : exportGrammar.Knows (sourceSetting path) where
  long := (by decide : isLong "--source".toList = true)
  plain := (by decide : '=' ∉ "--source".toList)
  rule := (by decide : exportGrammar.rule? "--source".toList = some ⟨.source, ["--source"], .text, true⟩)
  takes := rfl

theorem knows_projectSetting (project : String) : exportGrammar.Knows (projectSetting project) where
  long := (by decide : isLong "--project-name".toList = true)
  plain := (by decide : '=' ∉ "--project-name".toList)
  rule := (by decide : exportGrammar.rule? "--project-name".toList
    = some (rule .projectName "--project-name" .text))
  takes := rfl

/-- What is behind a command is left to it, if the program's own grammar lets it pass. -/
theorem read_command {first second : String} (hne : first ≠ "--" ∧ second ≠ "--")
    (hfirst : ∃ slot, programGrammar.slot first = .ok slot) (hsecond : ∃ slot, programGrammar.slot second = .ok slot) :
    programGrammar.read ["generate", first, second] = .ok ⟨[], [], some ("generate", [first, second]), none⟩ := by
  obtain ⟨slot, hslot⟩ := hfirst
  obtain ⟨slot', hslot'⟩ := hsecond
  have hslots : programGrammar.slots ["generate", first, second]
      = .ok [("generate", .plain), (first, slot), (second, slot')] := by
    simp only [Grammar.slots, beq_iff_eq, hne.1, hne.2, if_false, hslot, hslot']
    rfl
  rw [Grammar.read, hslots]
  rfl

/-- A script can be asked for of every path and for every name of a project. -/
theorem read_makeScript (path project : String) :
    read ["generate", (sourceSetting path).argument, (projectSetting project).argument]
      = .job ⟨0, false, false⟩ (.makeScript path project none) := by
  have hknown := knows_sourceSetting path
  have hknown' := knows_projectSetting project
  -- the program's own grammar sees the settings too, and must not take them for its options
  have hbegin : ∀ entry ∈ programGrammar.named, "--source".toList.isPrefixOf entry.1.toList = false := by
    decide
  have hbegin' : ∀ entry ∈ programGrammar.named, "--project-name".toList.isPrefixOf entry.1.toList = false := by
    decide
  have hsource : ∃ slot, programGrammar.slot (sourceSetting path).argument = .ok slot :=
    Grammar.exists_slot unequated_programGrammar hknown.long hknown.plain hbegin
  have hproject : ∃ slot, programGrammar.slot (projectSetting project).argument = .ok slot :=
    Grammar.exists_slot unequated_programGrammar hknown'.long hknown'.plain hbegin'
  have hprogram := read_command ⟨Grammar.argument_ne_dashes _, Grammar.argument_ne_dashes _⟩ hsource hproject
  have hknows : ∀ t ∈ [sourceSetting path, projectSetting project], exportGrammar.Knows t := by
    simp [hknown, hknown']
  have hcommand := Grammar.read_settings unequated_exportGrammar hknows rfl
  rw [read, hprogram]
  change ofCommand exportGrammar exportJob [] ([sourceSetting path, projectSetting project].map Setting.argument) = _
  rw [ofCommand, hcommand]
  rfl

end Invocation
end SchemaSketch.Cli
