import SyndDB.Framework.Json

namespace Json

open Octets

variable {α : Type}

/-- What a string says, if that is text. -/
def textOf (isText : Bytes → Bool) : Document → Option Bytes
  | .string raw => (unescape raw).filter fun text => isText text
  | _ => none

/-- Nothing, written as `null`, or what is read otherwise. -/
def optionOf (read : Document → Option α) : Document → Option (Option α)
  | .null => some none
  | document => (read document).map some

/-- The elements of an array. -/
def Node.elementList {k : Kind} : Node k → List Document
  | .element value rest => value :: rest.elementList
  | _ => []

/-- The members of an object. -/
def Node.memberList {k : Kind} : Node k → List (Bytes × Document)
  | .member name value rest => (name, value) :: rest.memberList
  | _ => []

/-- The values of the fields of a record, by their names in an object or by their
places in an array. -/
structure Fields where
  named : Bool
  value : Bytes → Option Document

/-- Names of members must be text, no field may come twice, and other members are passed over. -/
def fieldsOfObject (isText : Bytes → Bool) (names : List Bytes)
    (members : List (Bytes × Document)) :
    Option Fields := do
  let read ← members.mapM fun m => (textOf isText (.string m.1)).map fun name => (name, m.2)
  if names.all fun name => (read.filter fun m => m.1 = name).length ≤ 1 then
    some ⟨true, fun name => (read.find? fun m => m.1 = name).map Prod.snd⟩
  else none

/-- An array may be too short and not too long. -/
def fieldsOfArray (names : List Bytes) (elements : List Document) : Option Fields :=
  if elements.length ≤ names.length then some ⟨false, fun name => elements[names.idxOf name]?⟩
  else none

def fieldsOf (isText : Bytes → Bool) (names : List Bytes) : Document → Option Fields
  | .object members => fieldsOfObject isText names members.memberList
  | .array elements => fieldsOfArray names elements.elementList
  | _ => none

namespace Fields

variable (fields : Fields) (name : Bytes) (read : Document → Option α)

/-- A field that must be there. -/
def required : Option α := fields.value name >>= read

/-- A field with a default for when it is not there. -/
def withDefault (default : α) : Option α :=
  match fields.value name with
  | none => some default
  | some document => read document

/-- An optional field without a default, which only an object may lack. -/
def optional : Option (Option α) :=
  match fields.value name with
  | none => if fields.named then some none else none
  | some document => optionOf read document

end Fields

end Json
