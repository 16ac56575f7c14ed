import FormatString.Text.Transcode
import FormatString.Number.IntType
import FormatString.Number.Binary

/-!
# Arguments

The values a writing call is given, and the two ways of taking them: one after another, or by slot.
-/

namespace FormatString

/-- The unsigned integer type as wide as a code unit. -/
def Width.intType : Width → IntType
  | utf8 => ⟨.w8, false⟩
  | utf16 => ⟨.w16, false⟩
  | utf32 => ⟨.w32, false⟩

/-- An argument of a writing call. -/
inductive Arg where
  | integer (type : IntType) (value : Int)
  | float32 (value : Binary .binary32)
  | float64 (value : Binary .binary64)
  /-- A character given by one unit of its text. -/
  | char (w : Width) (unit : CodeUnit w)
  | text (text : AnyText)
  /-- A string that is not there. -/
  | nullText
  /-- A cell that receives the number of units written so far. -/
  | count (cell : Nat)

namespace Arg

/-- The value and the type of an argument that can be written as an integer. -/
def integer? : Arg → Option (Int × IntType)
  | integer type value => some (value, type)
  | char w unit => some (unit.value, w.intType)
  | _ => none

/-- The value of an argument that can be written as a float, in double precision. -/
def float? : Arg → Option (Binary .binary64)
  | float32 value => some (value.convert .binary64)
  | float64 value => some value
  | _ => none

end Arg

/-- A place in an argument list: the number of arguments before it and those still to come. -/
structure Cursor where
  position : Nat
  remaining : List Arg

/-- The front of an argument list. -/
def Cursor.ofArgs (args : List Arg) : Cursor := ⟨0, args⟩

/-- Where directives take their arguments from. -/
inductive ArgSource where
  /-- From left to right. -/
  | sequential (cursor : Cursor)
  /-- By slot, counted from one. -/
  | slots (args : List Arg)

/-- The arguments that are left when they are taken from left to right, and all of them when they
are taken by slot. -/
def ArgSource.cursor : ArgSource → Cursor
  | sequential cursor => cursor
  | slots args => .ofArgs args

/-- Takes the next argument, or the one of a slot. -/
def ArgSource.next (source : ArgSource) (slot : Option Nat) : Option Arg × ArgSource :=
  match source with
  | sequential ⟨_, []⟩ => (none, source)
  | sequential ⟨n, arg :: rest⟩ => (some arg, sequential ⟨n + 1, rest⟩)
  | slots args =>
    match slot with
    | some (i + 1) => (args[i]?, source)
    | _ => (none, source)

end FormatString
