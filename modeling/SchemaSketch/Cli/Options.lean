import SchemaSketch.Text.Quoted

/-!
# Reading a command line

A `Grammar` says which options a program knows and whether a command follows them. A command line is read in
two steps.

* Every argument is sorted into a `Slot`: plain text, an option of the grammar, or an option that the grammar
  does not know. A name may be cut short as long as only one option begins that way, a value may be glued to its
  option with an equals sign, and after `--` everything is plain. What looks like a negative number or holds a
  space is plain unless it names an option.
* The slots are gone through in order. Options of one letter may stand in one `Cluster` behind one dash. The
  first plain text is the command, if the grammar has commands, and all that follows it is left to the command.

What no option takes up is an *extra*, which is not refused here: a command's own reading may add more of them.
-/

namespace SchemaSketch.Cli
open Text

/-- What an option takes. -/
inductive Takes where
  /-- nothing -/
  | nothing
  /-- nothing, and the reading of the line ends with it -/
  | nothingMore
  /-- a text -/
  | text
  /-- one of some words -/
  | oneOf (words : List String)
  deriving DecidableEq, Repr

/-- Whether there is something to take. -/
def Takes.hasValue : Takes → Bool
  | nothing | nothingMore => false
  | text | oneOf _ => true

/-- An option. -/
structure Rule (κ : Type) where
  /-- what it is for -/
  key : κ
  /-- its names, with their dashes -/
  names : List String
  /-- what it takes -/
  takes : Takes
  /-- whether it must be there -/
  isRequired : Bool
  deriving DecidableEq, Repr

/-- An option in messages. -/
def Rule.label {κ : Type} (r : Rule κ) : String := "/".intercalate r.names

/-- A program's options and commands. -/
structure Grammar (κ : Type) where
  /-- the name of the program -/
  program : String
  /-- the options -/
  rules : List (Rule κ)
  /-- the commands, one of which must follow the options unless there are none -/
  commands : List String
  deriving DecidableEq, Repr

/-- Why a command line is refused. -/
inductive OptionFault where
  /-- several options begin like this -/
  | ambiguous (argument : String) (names : List String)
  /-- a value is glued to an option that takes none -/
  | unusedValue (label value : String)
  /-- an option takes a value and none follows -/
  | noValue (label : String)
  /-- a value is none of the words that it may be -/
  | notAmong (label value : String) (words : List String)
  /-- what must be there is not -/
  | missing (labels : List String)
  /-- nothing takes these up -/
  | unrecognized (extras : List String)
  deriving DecidableEq, Repr

/-- A fault in words. -/
def OptionFault.message : OptionFault → String
  | ambiguous argument names =>
    "ambiguous option: " ++ argument ++ " could match " ++ ", ".intercalate names
  | unusedValue label value => "argument " ++ label ++ ": ignored explicit argument " ++ quotedText value
  | noValue label => "argument " ++ label ++ ": expected one argument"
  | notAmong label value words =>
    "argument " ++ label ++ ": invalid choice: " ++ quotedText value ++ " (choose from "
      ++ ", ".intercalate (words.map quotedText) ++ ")"
  | missing labels => "the following arguments are required: " ++ ", ".intercalate labels
  | unrecognized extras => "unrecognized arguments: " ++ " ".intercalate extras

/-! ## Slots -/

/-- A value that is glued to an option. -/
structure Glued where
  /-- whether an equals sign is between them -/
  equals : Bool
  /-- the value -/
  value : List Char
  deriving DecidableEq, Repr

/-- What an argument is, seen alone. -/
inductive Slot (κ : Type) where
  /-- a plain text -/
  | plain
  /-- the two dashes after which everything is plain -/
  | dashes
  /-- an option that is not known -/
  | unknown
  /-- an option by one of its names, and what is glued to it -/
  | option (rule : Rule κ) (name : String) (glued : Option Glued)

variable {κ : Type}

/-- The options of a grammar by name. -/
def Grammar.named (g : Grammar κ) : List (String × Rule κ) :=
  g.rules.flatMap fun r => r.names.map fun name => (name, r)

/-- The option of a name. -/
def Grammar.rule? (g : Grammar κ) (name : List Char) : Option (Rule κ) :=
  (g.named.find? (·.1.toList == name)).map (·.2)

/-- Whether a name has two dashes in front. -/
def isLong (name : List Char) : Bool := name.take 2 == ['-', '-']

/-- A text without the line feed at its end. -/
def withoutLineFeed (cs : List Char) : List Char :=
  if cs.getLast? == some '\n' then cs.dropLast else cs

/-- Whether an argument looks like a negative number. -/
def isNegativeNumber (argument : List Char) : Bool :=
  match argument with
  | '-' :: digits =>
    let digits := withoutLineFeed digits
    let whole := digits.takeWhile isDecimal
    match digits.drop whole.length with
    | [] => !whole.isEmpty
    | '.' :: places => !places.isEmpty && places.all isDecimal
    | _ => false
  | _ => false

/-- The options that an argument may stand for when it is the name of none, with what is glued to each:
an argument with two dashes is the beginning of a name, up to an equals sign; any other is the name of one
letter with a value behind it, or the beginning of a name. -/
def Grammar.candidates (g : Grammar κ) (argument : List Char) : List (String × Rule κ × Option Glued) :=
  if isLong argument then
    let before := argument.takeWhile (· != '=')
    let glued := match argument.drop before.length with
      | _ :: value => some ⟨true, value⟩
      | [] => none
    (g.named.filter fun (name, _) => before.isPrefixOf name.toList).map fun (name, r) => (name, r, glued)
  else
    g.named.filterMap fun (name, r) =>
      if name.toList == argument.take 2 then some (name, r, some ⟨false, argument.drop 2⟩)
      else if argument.isPrefixOf name.toList then some (name, r, none)
      else none

/-- The option in front of an equals sign. -/
def Grammar.beforeEquals? (g : Grammar κ) (argument : List Char) : Option (Slot κ) :=
  let before := argument.takeWhile (· != '=')
  match argument.drop before.length with
  | _ :: value => (g.rule? before).map fun r => .option r (String.ofList before) (some ⟨true, value⟩)
  | [] => none

/-- What an argument is, when it begins with a dash and is longer than that. -/
def Grammar.dashedSlot (g : Grammar κ) (argument : String) : Except OptionFault (Slot κ) :=
  match g.rule? argument.toList, g.beforeEquals? argument.toList with
  | some r, _ => .ok (.option r argument none)
  | none, some slot => .ok slot
  | none, none =>
    match g.candidates argument.toList with
    | [(name, r, glued)] => .ok (.option r name glued)
    | [] =>
      .ok (if isNegativeNumber argument.toList || argument.toList.contains ' ' then .plain else .unknown)
    | several => .error (.ambiguous argument (several.map (·.1)))

/-- What an argument is. -/
def Grammar.slot (g : Grammar κ) (argument : String) : Except OptionFault (Slot κ) :=
  match argument.toList with
  | '-' :: _ :: _ => g.dashedSlot argument
  | _ => .ok .plain

/-- The arguments with what they are. -/
def Grammar.slots (g : Grammar κ) : List String → Except OptionFault (List (String × Slot κ))
  | [] => .ok []
  | argument :: rest =>
    if argument == "--" then .ok ((argument, .dashes) :: rest.map fun a => (a, .plain))
    else do
      let slot ← g.slot argument
      let more ← slots g rest
      pure ((argument, slot) :: more)

/-! ## Clusters -/

/-- An option with the text that it takes, which is empty if it takes none. -/
structure Use (κ : Type) where
  /-- the option -/
  rule : Rule κ
  /-- the text -/
  value : String

/-- The options of one argument. -/
structure Cluster (κ : Type) where
  /-- the options that are complete -/
  uses : List (Use κ)
  /-- an option at the end with nothing glued to it -/
  open? : Option (Rule κ)
  /-- what is left over -/
  extras : List String

/-- The cluster of an option with a value glued to it. An option of one letter that takes nothing leaves
the value to the options whose letters it is made of. -/
def Grammar.cluster (g : Grammar κ) (rule : Rule κ) (long equals : Bool) :
    List Char → Except OptionFault (Cluster κ)
  | [] =>
    if rule.takes.hasValue then .ok ⟨[⟨rule, ""⟩], none, []⟩ else .error (.unusedValue rule.label "")
  | c :: rest =>
    if rule.takes.hasValue then .ok ⟨[⟨rule, String.ofList (c :: rest)⟩], none, []⟩
    else if long || equals || c == '-' then .error (.unusedValue rule.label (String.ofList (c :: rest)))
    else
      match g.rule? ['-', c] with
      | none => .ok ⟨[⟨rule, ""⟩], none, [String.ofList ('-' :: c :: rest)]⟩
      | some next =>
        match rest with
        | [] => .ok ⟨[⟨rule, ""⟩], some next, []⟩
        | '=' :: value => (cluster g next false true value).map fun k => { k with uses := ⟨rule, ""⟩ :: k.uses }
        | d :: value =>
          (cluster g next false false (d :: value)).map fun k => { k with uses := ⟨rule, ""⟩ :: k.uses }

/-- The cluster of an option. -/
def Grammar.clusterOf (g : Grammar κ) (rule : Rule κ) (name : String) (glued : Option Glued) :
    Except OptionFault (Cluster κ) :=
  match glued with
  | none => .ok ⟨[], some rule, []⟩
  | some glued => g.cluster rule (isLong name.toList) glued.equals glued.value

/-! ## Reading -/

/-- What has been read. -/
structure Reading (κ : Type) where
  /-- the options, in order -/
  uses : List (Use κ)
  /-- what no option takes up -/
  extras : List String
  /-- the command, and the arguments that are left to it -/
  command? : Option (String × List String)
  /-- the option that ended the reading -/
  ended? : Option κ

/-- A use is accepted unless its value is none of the words that it may be; after an option that ends the
reading nothing is looked at. -/
def Reading.accept (r : Reading κ) (use : Use κ) : Except OptionFault (Reading κ) :=
  if r.ended?.isSome then .ok r
  else
    match use.rule.takes with
    | .oneOf words =>
      if words.contains use.value then .ok { r with uses := r.uses ++ [use] }
      else .error (.notAmong use.rule.label use.value words)
    | .nothingMore => .ok { r with ended? := some use.rule.key }
    | _ => .ok { r with uses := r.uses ++ [use] }

/-- More extras. -/
def Reading.withExtras (r : Reading κ) (extras : List String) : Reading κ :=
  { r with extras := r.extras ++ extras }

/-- A command, if it is one of the grammar. -/
def Grammar.choose (g : Grammar κ) (r : Reading κ) (command : String) (rest : List String) :
    Except OptionFault (Reading κ) :=
  if g.commands.contains command then .ok { r with command? := some (command, rest) }
  else .error (.notAmong "command" command g.commands)

/-- Going through the slots. -/
def Grammar.scan (g : Grammar κ) (r : Reading κ) : List (String × Slot κ) → Except OptionFault (Reading κ)
  | [] => .ok r
  | (argument, .plain) :: rest =>
    if g.commands.isEmpty then scan g (r.withExtras [argument]) rest
    else g.choose r argument (rest.map (·.1))
  | (argument, .dashes) :: rest =>
    if g.commands.isEmpty || rest.isEmpty then scan g (r.withExtras [argument]) rest
    else g.choose r argument (rest.map (·.1))
  | (argument, .unknown) :: rest => scan g (r.withExtras [argument]) rest
  | (_, .option rule name glued) :: rest => do
    let found ← g.clusterOf rule name glued
    match found.open? with
    | none =>
      let r ← found.uses.foldlM Reading.accept (r.withExtras found.extras)
      if r.ended?.isSome then pure r else scan g r rest
    | some last =>
      if last.takes.hasValue then
        match rest with
        | (value, .plain) :: rest =>
          let r ← (found.uses ++ [Use.mk last value]).foldlM Reading.accept r
          if r.ended?.isSome then pure r else scan g r rest
        | _ => .error (.noValue last.label)
      else
        let r ← (found.uses ++ [Use.mk last ""]).foldlM Reading.accept r
        if r.ended?.isSome then pure r else scan g r rest

/-- Whether an option was used. -/
def Reading.has [DecidableEq κ] (r : Reading κ) (key : κ) : Bool := r.uses.any (·.rule.key == key)

/-- What must be there and is not. -/
def Grammar.missing [DecidableEq κ] (g : Grammar κ) (r : Reading κ) : List String :=
  (g.rules.filter fun rule => rule.isRequired && !r.has rule.key).map Rule.label
    ++ (if !g.commands.isEmpty && r.command?.isNone then ["command"] else [])

/-- A command line as a grammar reads it. -/
def Grammar.read [DecidableEq κ] (g : Grammar κ) (arguments : List String) :
    Except OptionFault (Reading κ) := do
  let slots ← g.slots arguments
  let r ← g.scan ⟨[], [], none, none⟩ slots
  if r.ended?.isSome || (g.missing r).isEmpty then pure r else .error (.missing (g.missing r))

/-- How often an option was used. -/
def Reading.count [DecidableEq κ] (r : Reading κ) (key : κ) : Nat := r.uses.countP (·.rule.key == key)

/-- The text that an option was last used with. -/
def Reading.value? [DecidableEq κ] (r : Reading κ) (key : κ) : Option String :=
  (r.uses.reverse.find? (·.rule.key == key)).map (·.value)

end SchemaSketch.Cli
