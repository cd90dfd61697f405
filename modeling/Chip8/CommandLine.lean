import Chip8.Text.Digit
import Chip8.Text.Numeral
import Chip8.Text.Quoted

/-!
# Command lines

A command line is a list of arguments: options, the values of options, and
plain values. An option may be shortened as long as only one option starts that
way, and its value may follow it or be attached by an equals sign. Attaching the
mark that ends the options gives an option without a value. Reading yields the
settings in the order in which they are given. A mistake ends it, and the settings
before the mistake keep their turn, so that the leftmost mistake is the one reported.
-/

namespace Chip8.CommandLine

variable {Key : Type}

/-- An option: what it stands for in a program, and its spellings. -/
structure Flag (Key : Type) where
  key : Key
  names : List String
  takesValue : Bool
deriving DecidableEq, Repr

/-- The options of a program in the order of their definition, and whether one
plain value is expected. -/
structure Grammar (Key : Type) where
  flags : List (Flag Key)
  takesPlain : Bool
deriving DecidableEq, Repr

/-- Why a command line is refused. -/
inductive Misuse where
  | ambiguous (typed : String) (candidates : List String)
  | missingValue (label : String)
  | unusedValue (label typed : String)
  | notInteger (label typed : String)
  | notReal (label typed : String)
  | notChoice (label typed : String) (choices : List String)
  | leftOver (arguments : List String)
deriving DecidableEq, Repr

def Misuse.message : Misuse → String
  | ambiguous typed candidates =>
    "ambiguous option: " ++ typed ++ " could match " ++ ", ".intercalate candidates
  | missingValue label => "argument " ++ label ++ ": expected one argument"
  | unusedValue label typed =>
    "argument " ++ label ++ ": ignored explicit argument " ++ Text.quoted typed
  | notInteger label typed =>
    "argument " ++ label ++ ": invalid int value: " ++ Text.quoted typed
  | notReal label typed =>
    "argument " ++ label ++ ": invalid float value: " ++ Text.quoted typed
  | notChoice label typed choices =>
    "argument " ++ label ++ ": invalid choice: " ++ Text.quoted typed ++ " (choose from " ++
      ", ".intercalate (choices.map Text.quoted) ++ ")"
  | leftOver arguments => "unrecognized arguments: " ++ " ".intercalate arguments

/-- How an option is called in messages: by all its spellings. -/
def Flag.label (flag : Flag Key) : String := "/".intercalate flag.names

/-- The spellings of all options, in order. -/
def Grammar.spellings (grammar : Grammar Key) : List (String × Flag Key) :=
  grammar.flags.flatMap fun flag => flag.names.map fun name => (name, flag)

/-- The option of a spelling. -/
def Grammar.find? (grammar : Grammar Key) (name : String) : Option (Flag Key) :=
  grammar.spellings.lookup name

/-- What an argument is taken for. -/
inductive Role (Key : Type) where
  | value (typed : String)
  /-- An option, and the value attached to it. -/
  | flag (flag : Flag Key) (attached : Option String)
  /-- A short option without value, and what is attached to it. -/
  | cluster (flag : Flag Key) (attached : List Char)
  | unknown (typed : String)
  /-- The mark after which everything is a value. -/
  | mark
deriving DecidableEq, Repr

/-- Drop one line end at the end of a text. -/
def dropLineEnd (text : List Char) : List Char :=
  if text.getLast? = some '\n' then text.dropLast else text

/-- Whether a text after its minus sign is a plain decimal number. -/
def isUnsignedNumber (text : List Char) : Bool :=
  let isDigit := fun c => (Text.decimalValue? c).isSome
  match text.dropWhile isDigit with
  | [] => !text.isEmpty
  | '.' :: fraction => !fraction.isEmpty && fraction.all isDigit
  | _ => false

/-- A negative number is a value, and so is a text with a space. -/
def looksLikeValue (text : List Char) : Bool :=
  isUnsignedNumber (dropLineEnd (text.drop 1)) || text.contains ' '

/-- Cut a text at its first equals sign. -/
def cutEquals (text : List Char) : List Char × Option (List Char) :=
  match text.dropWhile (· != '=') with
  | [] => (text, none)
  | _ :: rest => (text.takeWhile (· != '='), some rest)

/-- The options that a double-dashed text may be short for. -/
def Grammar.completions (grammar : Grammar Key) (start : List Char) :
    List (String × Flag Key) :=
  grammar.spellings.filter fun (name, _) => start.isPrefixOf name.toList

/-- A short option with more characters: its value, or other short options. -/
def joined (flag : Flag Key) (attached : List Char) : Role Key :=
  if flag.takesValue then .flag flag (some (String.ofList attached)) else .cluster flag attached

/-- The options that a single-dashed text may mean: the one of its first letter
with the rest attached, or those it is short for. -/
def Grammar.shortReadings (grammar : Grammar Key) (text : List Char) :
    List (String × Role Key) :=
  grammar.spellings.filterMap fun (name, flag) =>
    if name.toList = text.take 2 then some (name, joined flag (text.drop 2))
    else if text.isPrefixOf name.toList then some (name, .flag flag none)
    else none

/-- The option that a text means, if it means exactly one. -/
def choose (typed : String) (readings : List (String × Role Key)) : Except Misuse (Role Key) :=
  match readings with
  | [] => .ok (if looksLikeValue typed.toList then .value typed else .unknown typed)
  | [(_, role)] => .ok role
  | _ => .error (.ambiguous typed (readings.map Prod.fst))

/-- What an argument before the mark is taken for. -/
def Grammar.classify (grammar : Grammar Key) (typed : String) : Except Misuse (Role Key) :=
  let text := typed.toList
  if text.head? != some '-' then .ok (.value typed)
  else if typed = "--" then .ok .mark
  else
    match grammar.find? typed with
    | some flag => .ok (.flag flag none)
    | none =>
      let (name, attached) := cutEquals text
      if text.length = 1 then .ok (.value typed)
      else
        match attached, grammar.find? (String.ofList name) with
        | some value, some flag =>
          .ok (if name.length = 2 then joined flag value
            else .flag flag (some (String.ofList value)))
        | _, _ =>
          if text.take 2 = ['-', '-'] then
            choose typed ((grammar.completions name).map fun (full, flag) =>
              (full, .flag flag (attached.map String.ofList)))
          else choose typed (grammar.shortReadings text)

/-- What the arguments are taken for. After the mark all are values. -/
def Grammar.roles (grammar : Grammar Key) : List String → Except Misuse (List (Role Key))
  | [] => .ok []
  | typed :: rest => do
    match ← grammar.classify typed with
    | .mark => pure (.mark :: rest.map .value)
    | role => pure (role :: (← grammar.roles rest))

/-- One setting: an option, or the plain value. -/
inductive Setting (Key : Type) where
  | flag (flag : Flag Key)
  /-- An option that takes a value. It may have been given without one. -/
  | option (flag : Flag Key) (value : Option String)
  | plain (value : String)
deriving DecidableEq, Repr

/-- Settings, and how the command line ends after them: in a mistake, or with
arguments that are left over. -/
structure Reading (Key : Type) where
  settings : List (Setting Key)
  ending : Except Misuse (List String)
deriving Repr

namespace Reading

def refuse (misuse : Misuse) : Reading Key := ⟨[], .error misuse⟩

def give (setting : Setting Key) (reading : Reading Key) : Reading Key :=
  { reading with settings := setting :: reading.settings }

def leave (argument : String) (reading : Reading Key) : Reading Key :=
  { reading with ending := reading.ending.map (argument :: ·) }

end Reading

/-- The settings of a cluster of short options without value. A letter that is
no such option is taken for a value, together with what follows it. -/
def Grammar.cluster (grammar : Grammar Key) (flag : Flag Key) :
    List Char → Except Misuse (List (Setting Key))
  | [] => .ok [.flag flag]
  | c :: rest =>
    match (grammar.find? (String.ofList ['-', c])).filter fun next => !next.takesValue with
    | some next => (grammar.cluster next rest).map (.flag flag :: ·)
    | none => .error (.unusedValue flag.label (String.ofList (c :: rest)))

/-- The value of an option as attached. The mark is no value: this is how release 3.11 of the
option grammar reads it, which is followed throughout; later releases may keep the mark. -/
def attachedValue (typed : String) : Option String := if typed = "--" then none else some typed

/-- Read the roles from left to right. `expecting` tells whether the plain value
is still to come. The mark itself is used up by the plain value next to it. -/
def Grammar.collect (grammar : Grammar Key) : Bool → List (Role Key) → Reading Key
  | _, [] => ⟨[], .ok []⟩
  | true, .value typed :: .mark :: rest =>
    .give (.plain typed) (grammar.collect false rest)
  | true, .value typed :: rest => .give (.plain typed) (grammar.collect false rest)
  | false, .value typed :: rest => .leave typed (grammar.collect false rest)
  | true, .mark :: .value typed :: rest => .give (.plain typed) (grammar.collect false rest)
  | true, .mark :: rest => grammar.collect false rest
  | false, .mark :: rest => .leave "--" (grammar.collect false rest)
  | expecting, .unknown typed :: rest => .leave typed (grammar.collect expecting rest)
  | _, .cluster flag [] :: _ => .refuse (.unusedValue flag.label "")
  | expecting, .cluster flag attached :: rest =>
    match grammar.cluster flag attached with
    | .error misuse => .refuse misuse
    | .ok settings => settings.foldr .give (grammar.collect expecting rest)
  | expecting, .flag flag (some value) :: rest =>
    if flag.takesValue then
      .give (.option flag (attachedValue value)) (grammar.collect expecting rest)
    else .refuse (.unusedValue flag.label value)
  | expecting, .flag flag none :: .value typed :: rest =>
    if flag.takesValue then .give (.option flag (some typed)) (grammar.collect expecting rest)
    else .give (.flag flag) (grammar.collect expecting (.value typed :: rest))
  | expecting, .flag flag none :: rest =>
    if flag.takesValue then .refuse (.missingValue flag.label)
    else .give (.flag flag) (grammar.collect expecting rest)

/-- Read a command line. -/
def Grammar.read (grammar : Grammar Key) (arguments : List String) : Reading Key :=
  match grammar.roles arguments with
  | .ok roles => grammar.collect grammar.takesPlain roles
  | .error misuse => .refuse misuse

/-- Carry out the settings in order, unless one of them stops, and refuse what is
left over. -/
def Reading.apply {Options Stop : Type} (reading : Reading Key) (refusal : Misuse → Stop)
    (change : Options → Setting Key → Except Stop Options) (start : Options) :
    Except Stop Options := do
  let options ← reading.settings.foldlM change start
  match reading.ending with
  | .ok [] => pure options
  | .ok arguments => throw (refusal (.leftOver arguments))
  | .error misuse => throw (refusal misuse)

/-- Read the value of an option as an integer. -/
def readInteger (label typed : String) : Except Misuse Int :=
  match Text.Numeral.integer? typed.toList with
  | some value => .ok value
  | none => .error (.notInteger label typed)

/-- Read the value of an option as a real quantity. -/
def readReal (label typed : String) : Except Misuse Text.Numeral.Real :=
  match Text.Numeral.real? typed.toList with
  | some value => .ok value
  | none => .error (.notReal label typed)

/-- Read the value of an option as one of some words. -/
def readChoice (choices : List String) (label typed : String) : Except Misuse String :=
  if choices.contains typed then .ok typed else .error (.notChoice label typed choices)

end Chip8.CommandLine
