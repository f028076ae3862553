import Mathlib
import SchemaSketch.Proofs.Cli.Documents
import SchemaSketch.Proofs.Cli.Options
import SchemaSketch.Proofs.Document.Saving
import SchemaSketch.Proofs.Export.Design
import SchemaSketch.Proofs.Files.Writing

/-!
# One command after the other

The first command makes a document of a script and saves it, the second one makes a script of a document.
What the second one prints is what the design of the first script would be written as, and nothing is lost on
the way (`script_of_saved`). Three things make up the way: the document is a text that is read back
(`Design.read_saved`), what is written at a path is found at it (`Files.find?_write`), and a design can
always be written (`Export.script_toDocument`).
-/

namespace SchemaSketch

theorem Import.run_eq_ok {base : BaseColumns} {script : List Char} {found : Import.Imported}
    (h : Import.run base script = .ok found) : Design.ofScript base script = .ok found.design := by
  obtain ⟨statements, hstatements, rfl⟩ := Except.map_eq_ok.1 h
  exact Except.map_eq_ok.2 ⟨statements, hstatements, rfl⟩

namespace Cli

variable {files : Files} {source path : String} {base : BaseColumns} {summary : Bool}

/-- All went well if a job did not end in trouble. -/
theorem Course.ending_of_status (c : Course) {log : Log.Settings} {time : String}
    (h : (c.outcome log time).status = 0) :
    c.ending = .ok (c.outcome log time).saved? := by
  unfold outcome at h ⊢
  cases hending : c.ending with
  | error t =>
    rw [hending] at h
    cases h
  | ok saved? => rfl

theorem exists_of_save {c : Course} {text said : String} {saved? : Option Saved}
    (h : (save files c path text said).ending = .ok saved?) :
    (∃ chain, files.targetOf path = .ok chain) ∧ saved? = some ⟨path, text⟩ := by
  unfold save at h
  split at h
  · cases h
  · next chain htarget => exact ⟨⟨chain, htarget⟩, (Except.ok.inj h).symm⟩

theorem exists_of_handOver {events : List Event} {summary? : Option String} {d : Document} {saved? : Option Saved}
    (h : (handOver files events summary? d (some path)).ending = .ok saved?) :
    d.toJson.fits = true ∧ (∃ chain, files.targetOf path = .ok chain) ∧ saved? = some ⟨path, d.toJson.indented⟩ := by
  unfold handOver at h
  split at h
  · cases h
  · next hfits => exact ⟨by simpa using hfits, exists_of_save h⟩

/-- A document that is saved is that of the design of the script at the source, and can be written. -/
theorem exists_of_makeDocument {c : Course} {saved? : Option Saved}
    (h : makeDocument files source base summary (some path) = .ok c) (hending : c.ending = .ok saved?) :
    ∃ script design, (readScript files source).2 = .ok script ∧ Design.ofScript base script = .ok design ∧
      design.toDocument.toJson.fits = true ∧ (∃ chain, files.targetOf path = .ok chain) ∧
      saved? = some ⟨path, design.toDocument.toJson.indented⟩ := by
  unfold makeDocument at h
  split at h
  · cases h
    cases hending
  · next events script hread =>
    obtain ⟨found, hfound, h⟩ := Except.bind_eq_ok.1 h
    obtain ⟨summary?, -, h⟩ := Except.bind_eq_ok.1 h
    obtain rfl := Except.ok.inj h
    obtain ⟨hfits, htarget, hsaved⟩ := exists_of_handOver hending
    have hdesign := Import.run_eq_ok (Except.mapError_eq_ok.1 hfound)
    exact ⟨script, found.design, by rw [hread], hdesign, hfits, htarget, hsaved⟩

/-- A design's document is read from where it was saved. -/
theorem readDocument_of_saved {d : Design} (hfits : d.toDocument.toJson.fits = true)
    (hfind : files.find? path = some (.file (Utf8.write d.toDocument.toJson.indented.toList))) :
    readDocument files path = .ok (.ok d.toDocument) := by
  obtain ⟨text, value, htext, hvalue, hdocument⟩ := d.read_saved hfits
  refine readDocument_eq_ok.2 ⟨text, value, ?_, hvalue, hdocument⟩
  rw [textAt?_of_file hfind, htext]
  rfl

/-- **The commands compose.** When a document has been made of a script and saved, it is read back as that of
the design. A script of it can be asked for in the name of every project, and any command line that does so
prints the script of the design. -/
theorem script_of_saved {s : Surroundings} {arguments : List String} {log : LogWish} {o : Outcome}
    (hread : Invocation.read arguments = .job log (.makeDocument source base summary (some path)))
    (hrun : run s arguments = .ok o) (hstatus : o.status = 0) :
    ∃ script design text files',
      (readScript s.files source).2 = .ok script ∧ Design.ofScript base script = .ok design ∧
      o.saved? = some ⟨path, text⟩ ∧ s.files.write path (Utf8.write text.toList) = .ok files' ∧
      readDocument files' path = .ok (.ok design.toDocument) ∧
      ∀ project, ∃ sql, (Export.script design.toDocument project).value = .ok sql ∧
        (∃ arguments' log', Invocation.read arguments' = .job log' (.makeScript path project none)) ∧
        ∀ time terminal arguments' log',
          Invocation.read arguments' = .job log' (.makeScript path project none) →
            ∃ o', run ⟨files', time, terminal⟩ arguments' = .ok o' ∧ Made o' sql none := by
  rw [run, hread] at hrun
  obtain ⟨c, hc, rfl⟩ := Except.map_eq_ok.1 hrun
  have hending := c.ending_of_status hstatus
  obtain ⟨script, design, hscript, hdesign, hfits, ⟨chain, htarget⟩, hsaved⟩ := exists_of_makeDocument hc hending
  have hwrite : s.files.write path (Utf8.write design.toDocument.toJson.indented.toList) = .ok _ :=
    Except.map_eq_ok.2 ⟨chain, htarget, rfl⟩
  have hfound := readDocument_of_saved hfits (Files.find?_write hwrite)
  refine ⟨script, design, _, _, hscript, hdesign, hsaved, hwrite, hfound, fun project => ?_⟩
  have hsql := Export.script_toDocument design project
  refine ⟨_, hsql, ⟨_, _, Invocation.read_makeScript path project⟩, fun time terminal arguments' log' hread' => ?_⟩
  obtain ⟨c', hc', hmade⟩ := makeScript_printed hfound hsql
  rw [run, hread']
  exact ⟨_, Except.map_eq_ok.2 ⟨c', hc', rfl⟩, hmade _ _⟩

/-- A folder with one script, whose default value has a quote, a letter beyond ASCII and a character beyond the
first plane. -/
def oneScript : Surroundings :=
  ⟨⟨.folder [("s.sql", .file (Utf8.write "CREATE TABLE t (a TEXT DEFAULT '\"é😀');".toList))], []⟩, "", false⟩

/-- The command line that makes its document. -/
def importLine : List String := ["parse", "--source", "s.sql", "--json-out", "m.json"]

/-- The command line that makes a script of that. -/
def exportLine : List String := ["generate", "--source", "m.json", "--project-name", "Shop"]

theorem script_of_saved_oneScript :
    ∃ o, run oneScript importLine = .ok o ∧ o.status = 0 ∧ ∃ script design text files',
      Design.ofScript .standard script = .ok design ∧ o.saved? = some ⟨"m.json", text⟩ ∧
      oneScript.files.write "m.json" (Utf8.write text.toList) = .ok files' ∧
      ∃ sql o', (Export.script design.toDocument "Shop").value = .ok sql ∧
        run ⟨files', "", false⟩ exportLine = .ok o' ∧ Made o' sql none := by
  have hread : Invocation.read importLine
      = .job ⟨0, false, false⟩ (.makeDocument "s.sql" .standard false (some "m.json")) := by decide +kernel
  have hread' : Invocation.read exportLine = .job ⟨0, false, false⟩ (.makeScript "m.json" "Shop" none) := by
    decide +kernel
  have hstatus : (run oneScript importLine).toOption.map (·.status) = some 0 := by decide +kernel
  cases hrun : run oneScript importLine with
  | error b =>
    rw [hrun] at hstatus
    cases hstatus
  | ok o =>
    rw [hrun] at hstatus
    have hstatus : o.status = 0 := Option.some.inj hstatus
    obtain ⟨script, design, text, files', -, hdesign, hsaved, hwrite, -, hscripts⟩ :=
      script_of_saved hread hrun hstatus
    obtain ⟨sql, hsql, -, hlines⟩ := hscripts "Shop"
    obtain ⟨o', hrun', hmade⟩ := hlines "" false exportLine _ hread'
    exact ⟨o, rfl, hstatus, script, design, text, files', hdesign, hsaved, hwrite, sql, o', hsql, hrun', hmade⟩

end Cli
end SchemaSketch
