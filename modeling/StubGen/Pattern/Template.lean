import StubGen.Number.Digits
import StubGen.Pattern.Matcher

/-!
# Replacement templates

A `$` refers to a group by number or name: either the longest run of letters, digits and low lines after it, or
whatever stands in braces.  Two of them stand for one, and a `$` that begins no reference stands for itself.
-/

namespace StubGen

/-- A part of a template: a character, or a reference to a group by its written name. -/
inductive TemplatePart where
  | char (c : Char)
  | reference (name : List Char)
  deriving DecidableEq, Repr

namespace TemplatePart

/-- The characters of a name without braces. -/
def isNameChar (c : Char) : Bool := c.isAlphanum || c = '_'

/-- The parts of a template.  `skip` characters belong to a reference that has been read. -/
def partsFrom : Nat → List Char → List TemplatePart
  | _, [] => []
  | skip + 1, _ :: rest => partsFrom skip rest
  | 0, c :: rest =>
    if c ≠ '$' then char c :: partsFrom 0 rest
    else
      match rest with
      | '$' :: _ => char '$' :: partsFrom 1 rest
      | '\x7b' :: inner =>
        if inner.contains '\x7d' then
          let name := inner.takeWhile (· ≠ '\x7d')
          reference name :: partsFrom (name.length + 2) rest
        else char '$' :: partsFrom 0 rest
      | _ =>
        let name := rest.takeWhile isNameChar
        if name.isEmpty then char '$' :: partsFrom 0 rest else reference name :: partsFrom name.length rest

/-- The parts of a template. -/
def parts (template : String) : List TemplatePart := partsFrom 0 template.toList

/-- The number that a name is, with or without a sign. -/
def number? (name : List Char) : Option Nat :=
  let digits :=
    match name with
    | '+' :: digits => digits
    | digits => digits
  if digits.isEmpty then none else digitsValue? 10 digits

/-- What a part stands for in the replacement of a match. -/
def expand (names : List (String × Nat)) (found : Match) : TemplatePart → List Char
  | char c => [c]
  | reference name =>
    match number? name with
    | some index => found.groupText index
    | none => ((names.lookup (String.ofList name)).map found.groupText).getD []

end TemplatePart

/-- The text with each match replaced as the template says. -/
def CompiledPattern.substitute (compiled : CompiledPattern) (template text : String) : String :=
  let parts := TemplatePart.parts template
  let replace (found : Match) : List Char := parts.flatMap (TemplatePart.expand compiled.names found)
  String.ofList (compiled.replaceAll replace text.toList)

end StubGen
