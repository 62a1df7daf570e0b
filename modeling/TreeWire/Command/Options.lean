import TreeWire.Number.IntText

/-
  The options of a command line.

  An option has a long name after two hyphens, and may have a
  letter after one hyphen.  Its value is the next argument, or
  is joined to it: to the name by an equals sign, to the
  letter with or without one.  An argument that starts with a
  hyphen is a value only if it is joined, or is the hyphen
  alone.

  Key definitions include:
    * `OptionRule`
    * `GivenOption`
    * `readOptions`
-/

namespace TreeWire

------------------------------------------------------------
-- Rules
------------------------------------------------------------

/- How many values an option takes. -/
inductive Arity where
  | none
  | one
  | many
  deriving DecidableEq, Repr, Inhabited

/- What a value stands for. -/
inductive ValueKind where
  | text
  | path
  | count
  deriving DecidableEq, Repr, Inhabited

/- The count that a text stands for, if it fits in a word. -/
def readCount?
    (text : String) : Option Nat :=
  (readNat? text).filter (· < 0x10000000000000000)

namespace ValueKind

/- Whether a text is a value of a kind. -/
def accepts : ValueKind → String → Bool
  | .text, _ => true
  | .path, s => !s.isEmpty
  | .count, s => (readCount? s).isSome

end ValueKind

/- An option that a command knows. -/
structure OptionRule where
  name : String
  letter : Option Char
  arity : Arity
  kind : ValueKind
  deriving DecidableEq, Repr, Inhabited

namespace OptionRule

/- A switch, which takes no value. -/
def switch
    (name : String) : OptionRule :=
  ⟨name, none, .none, .text⟩

/- The switch that asks for help. -/
def help : OptionRule :=
  ⟨"help", some 'h', .none, .text⟩

end OptionRule

------------------------------------------------------------
-- Arguments
------------------------------------------------------------

/- What an argument is. -/
inductive Argument where
  | option (rule : OptionRule) (joined : Option String)
  | value (text : String)
  | unknown
  deriving DecidableEq, Repr, Inhabited

namespace Argument

/- Read an option after its two hyphens. -/
def ofName
    (rules : List OptionRule)
    (body : List Char) : Argument :=
  let name := String.ofList (body.takeWhile (· ≠ '='))
  let joined :=
    match body.dropWhile (· ≠ '=') with
    | _ :: rest => some (String.ofList rest)
    | [] => none
  match rules.find? (·.name = name) with
  | none =>
      .unknown
  | some rule =>
      if rule.arity = .none && joined.isSome then .unknown
      else .option rule joined

/-
  Read an option at its letter.  Help is the one switch with a
  letter, and what follows it does not matter.
-/
def ofLetter
    (rules : List OptionRule)
    (letter : Char)
    (rest : List Char) : Argument :=
  match rules.find? (·.letter = some letter) with
  | none =>
      .unknown
  | some rule =>
      if rule.arity = .none then .option rule none
      else
        match rest with
        | [] => .option rule none
        | '=' :: cs => .option rule (some (String.ofList cs))
        | cs => .option rule (some (String.ofList cs))

/- Read an argument. -/
def read
    (rules : List OptionRule)
    (text : String) : Argument :=
  match text.toList with
  | '-' :: '-' :: body => ofName rules body
  | '-' :: letter :: rest => ofLetter rules letter rest
  | _ => .value text

/- Whether an argument asks for help. -/
def asksForHelp : Argument → Bool
  | .option rule _ => rule = OptionRule.help
  | _ => false

end Argument

------------------------------------------------------------
-- Given Options
------------------------------------------------------------

/- An option with its values, as it is given. -/
structure GivenOption where
  rule : OptionRule
  values : List String
  deriving DecidableEq, Repr, Inhabited

/-
  The values of an option: the joined one, or those after it.
  No value may be left over.
-/
def takeValues? :
    Arity →
    (joined : Option String) →
    (following : List String) →
    Option (List String)
  | .none, none, [] => some []
  | .one, some value, [] => some [value]
  | .one, none, [value] => some [value]
  | .many, some value, [] => some [value]
  | .many, none, value :: values => some (value :: values)
  | _, _, _ => none

/- The values in front of all options, and the options. -/
def gather? :
    List Argument → Option (List String × List GivenOption)
  | [] =>
      some ([], [])
  | .value text :: rest => do
      let (values, given) ← gather? rest
      some (text :: values, given)
  | .option rule joined :: rest => do
      let (following, given) ← gather? rest
      let values ← takeValues? rule.arity joined following
      if values.all rule.kind.accepts then
        some ([], ⟨rule, values⟩ :: given)
      else
        none
  | .unknown :: _ =>
      none

/- Whether an option is given twice that takes one place. -/
def repeats
    (given : List GivenOption) : Bool :=
  let names :=
    (given.filter (·.rule.arity ≠ .many)).map (·.rule.name)
  !decide names.Nodup

/- The options that arguments give. -/
def givenOptions?
    (arguments : List Argument) : Option (List GivenOption) :=
  match gather? arguments with
  | some ([], given) => if repeats given then none else some given
  | _ => none

/- Why arguments ask for nothing that can be done. -/
inductive Interruption where
  | help
  | misuse
  deriving DecidableEq, Repr, Inhabited

/-
  Read the options of a command.  Two hyphens alone end them,
  and nothing may follow.  Help is given as soon as it is
  asked for, if all is well up to there.
-/
def readOptions
    (rules : List OptionRule)
    (texts : List String) :
    Except Interruption (List GivenOption) :=
  let front := texts.takeWhile (· ≠ "--")
  let arguments :=
    front.map (Argument.read (OptionRule.help :: rules))
  let asked := arguments.takeWhile (!·.asksForHelp)
  match givenOptions? asked with
  | none =>
      .error .misuse
  | some given =>
      if asked.length < arguments.length then
        .error .help
      else if front.length + 1 < texts.length then
        .error .misuse
      else
        .ok given

------------------------------------------------------------
-- Lookup
------------------------------------------------------------

/- Whether an option is given. -/
def isGiven
    (given : List GivenOption)
    (name : String) : Bool :=
  given.any (·.rule.name = name)

/- All values of an option, in order. -/
def valuesOf
    (given : List GivenOption)
    (name : String) : List String :=
  (given.filter (·.rule.name = name)).flatMap (·.values)

/- The value of an option. -/
def valueOf?
    (given : List GivenOption)
    (name : String) : Option String :=
  (valuesOf given name).head?

end TreeWire
