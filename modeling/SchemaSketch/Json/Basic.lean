import SchemaSketch.Decimal.Binary64

/-!
# JSON values

A document is a JSON value, and so is every attribute in it, since a document that someone else wrote may
hold anything anywhere. Whole numbers are kept apart from floating-point numbers and have no bound.
The members of an object keep the order in which they were first written.

Three questions are asked of values whose type is not known:

* does it count as *given* (`isGiven`)? Null, false, zero and what is empty do not;
* do two values *agree* (`agrees`)? Numbers and truth values agree when they are equal as numbers, lists
  item by item, objects member by member in any order;
* can it be a *key* (`isKey`)? Lists and objects cannot.

Text of a whole number is bounded all the same, whether it is written or read: a value whose numbers can be
written `fits`.
-/

namespace SchemaSketch

/-- A JSON value. -/
inductive Json where
  | null
  | bool (b : Bool)
  | int (i : Int)
  | float (x : Binary64)
  | string (s : String)
  | array (items : List Json)
  | object (members : List (String × Json))
  deriving Repr, Inhabited

namespace Json

/-- The value of a member. -/
def lookup? (key : String) : List (String × Json) → Option Json
  | [] => none
  | (k, v) :: rest => if k == key then some v else lookup? key rest

/-- Members with one put in: in the place of the member of that name, or at the end. -/
def insert (key : String) (value : Json) : List (String × Json) → List (String × Json)
  | [] => [(key, value)]
  | (k, v) :: rest => if k == key then (k, value) :: rest else (k, v) :: insert key value rest

/-- The name of a value's type in messages. -/
def typeName : Json → String
  | null => "NoneType"
  | bool _ => "bool"
  | int _ => "int"
  | float _ => "float"
  | string _ => "str"
  | array _ => "list"
  | object _ => "dict"

/-- Whether a value counts as given. -/
def isGiven : Json → Bool
  | null => false
  | bool b => b
  | int i => i != 0
  | float x => !x.isWhole 0
  | string s => !s.isEmpty
  | array items => !items.isEmpty
  | object members => !members.isEmpty

/-- Whether a value can be a key. -/
def isKey : Json → Bool
  | array _ | object _ => false
  | _ => true

/-- The whole number that a truth value or a whole number counts as. -/
def whole? : Json → Option Int
  | bool b => some (if b then 1 else 0)
  | int i => some i
  | _ => none

/-- Whether two values agree, when neither is a list or an object. Inside a list or an object
(`inside`), what is no number agrees with itself. -/
def scalarsAgree (inside : Bool) (a b : Json) : Bool :=
  match a.whole?, b.whole? with
  | some i, some j => i == j
  | some i, none => match b with | float y => y.isWhole i | _ => false
  | none, some j => match a with | float x => x.isWhole j | _ => false
  | none, none =>
    match a, b with
    | null, null => true
    | float x, float y => x.sameValue y || (inside && x == .nan && y == .nan)
    | string s, string t => s == t
    | _, _ => false

mutual

/-- Whether two values agree. -/
def agreesAt (inside : Bool) : Json → Json → Bool
  | array items, b => match b with | array others => itemsAgree items others | _ => false
  | object members, b =>
    match b with
    | object others => members.length == others.length && membersAgree members others
    | _ => false
  | null, b => scalarsAgree inside null b
  | bool x, b => scalarsAgree inside (bool x) b
  | int x, b => scalarsAgree inside (int x) b
  | float x, b => scalarsAgree inside (float x) b
  | string x, b => scalarsAgree inside (string x) b

/-- Whether two lists agree item by item. -/
def itemsAgree : List Json → List Json → Bool
  | [], others => others.isEmpty
  | a :: rest, others =>
    match others with
    | [] => false
    | b :: more => agreesAt true a b && itemsAgree rest more

/-- Whether every member agrees with the one of its name among others. -/
def membersAgree : List (String × Json) → List (String × Json) → Bool
  | [], _ => true
  | (k, v) :: rest, others =>
    (match lookup? k others with
      | some w => agreesAt true v w
      | none => false) && membersAgree rest others

end

/-- Whether two values agree. -/
def agrees (a b : Json) : Bool := agreesAt false a b

/-- Whether two values are the same key. -/
def sameKey (a b : Json) : Bool := scalarsAgree true a b

/-! ## Long numbers -/

/-- The most digits of a whole number that is written or read. -/
def maxDigits : Nat := 4300

mutual

/-- Whether no whole number in a value has too many digits. -/
def fits : Json → Bool
  | null => true
  | bool _ => true
  | int i => (Nat.toDigits 10 i.natAbs).length ≤ maxDigits
  | float _ => true
  | string _ => true
  | array items => itemsFit items
  | object members => membersFit members

/-- Whether no whole number in some items has too many digits. -/
def itemsFit : List Json → Bool
  | [] => true
  | item :: rest => fits item && itemsFit rest

/-- Whether no whole number in some members has too many digits. -/
def membersFit : List (String × Json) → Bool
  | [] => true
  | (_, value) :: rest => fits value && membersFit rest

end

end Json
end SchemaSketch
