import HoneypotAudit.CommandLine.Fault
import HoneypotAudit.Text.Digit
import HoneypotAudit.Text.Lines

/-!
# The syntax of command lines

A `Section` says which options a part of a command line knows and what its operand is;
`Section.read` reads a list of words by it.

* A word that starts with a dash is an option if the section knows it.  A long option may be
  shortened as long as it stays clear which one is meant.
* A value may stand in the next word, behind an equals sign, or right behind an option of one
  letter.  Two dashes that are joined to an option stand for no value.
* Options of one letter that take no value may share one dash, and then each letter has to be one
  of them.
* Two dashes by themselves end the options.
* Numbers below zero and words with a space are never unknown options.
* The first word that belongs to no option is the operand, or the name of a command, to which all
  words behind it belong.  Words that nothing takes are left over.
-/

namespace HoneypotAudit.CommandLine

open HoneypotAudit.Text

/-! ## Sections -/

/-- What an option does to the state of reading. -/
inductive Effect (σ : Type) where
  /-- Asks for help. -/
  | help
  | flag (set : σ → σ)
  /-- Sets a value; `clear` sets that there is none. -/
  | value (set : String → σ → Except Fault σ) (clear : σ → σ)

/-- An option with its names. -/
structure Switch (σ : Type) where
  names : List String
  effect : Effect σ

/-- The names of an option in messages. -/
def Switch.label {σ : Type} (s : Switch σ) : String :=
  "/".intercalate s.names

/-- Whether an option takes a value. -/
def Switch.takesValue {σ : Type} (s : Switch σ) : Bool :=
  match s.effect with
  | .value .. => true
  | _ => false

/-- What the words are that belong to no option. -/
inductive Operand (σ : Type) where
  | absent
  /-- One word that has to be there. -/
  | word (label : String) (set : String → σ → σ)
  /-- A word that all words behind it belong to. -/
  | command (set : List String → σ → Except Stop σ)

/-- A part of a command line with its options and its operand. -/
structure Section (σ : Type) where
  part : Part
  switches : List (Switch σ)
  operand : Operand σ

/-! ## Tokens -/

/-- An option as a word names it. -/
structure Mention (σ : Type) where
  switch : Switch σ
  /-- Whether the name is one letter behind a dash. -/
  byLetter : Bool
  /-- What the word joins to the name. -/
  attached : Option (List Char)

/-- A word of a command line by its role. -/
inductive Token (σ : Type) where
  /-- The two dashes that end the options. -/
  | ending
  | word (text : String)
  | option (text : String) (mention : Mention σ)
  | unknown (text : String)

/-- The two dashes that end the options. -/
def endingText : String := "--"

/-- The word of a token. -/
def Token.text {σ : Type} : Token σ → String
  | .ending => endingText
  | .word text => text
  | .option text .. => text
  | .unknown text => text

/-- Whether a word is a number below zero. -/
def isNegativeNumber (cs : List Char) : Bool :=
  let cs := if cs.getLast? = some '\n' then cs.dropLast else cs
  match cs with
  | '-' :: cs =>
    match cutFirst '.' cs with
    | (whole, none) => !whole.isEmpty && whole.all isDigit
    | (whole, some fraction) => whole.all isDigit && !fraction.isEmpty && fraction.all isDigit
  | _ => false

/-- Whether a name is one letter behind a dash. -/
def isLetterName (name : String) : Bool :=
  match name.toList with
  | ['-', c] => c != '-'
  | _ => false

section
variable {σ : Type}

/-- The names that a section knows, with their options. -/
def Section.named (s : Section σ) : List (String × Switch σ) :=
  s.switches.flatMap fun switch => switch.names.map fun name => (name, switch)

/-- The option of a name. -/
def Section.switch? (s : Section σ) (name : String) : Option (Switch σ) :=
  s.named.lookup name

/-- The names that a word may stand for that is no name itself. -/
def Section.candidates (s : Section σ) (cs : List Char) : List (String × Mention σ) :=
  match cs with
  | '-' :: '-' :: _ =>
    let (start, attached) := cutFirst '=' cs
    (s.named.filter fun (name, _) => start.isPrefixOf name.toList).map fun (name, switch) =>
      (name, ⟨switch, false, attached⟩)
  | '-' :: letter :: attached =>
    (s.named.filter fun (name, _) => name.toList = ['-', letter]).map fun (name, switch) =>
      (name, ⟨switch, true, some attached⟩)
  | _ => []

/-- The option that a word names in full, by itself or in front of an equals sign. -/
def Section.exact? (s : Section σ) (text : String) : Option (Mention σ) :=
  match s.switch? text with
  | some switch => some ⟨switch, isLetterName text, none⟩
  | none =>
    let (start, attached) := cutFirst '=' text.toList
    let name := String.ofList start
    (s.switch? name).map fun switch => ⟨switch, isLetterName name, attached⟩

/-- The role of a word that is not the end of the options. -/
def Section.classify (s : Section σ) (text : String) : Except Fault (Token σ) :=
  match text.toList with
  | '-' :: c :: cs =>
    match s.exact? text with
    | some mention => .ok (.option text mention)
    | none =>
      match s.candidates ('-' :: c :: cs) with
      | [] =>
        if isNegativeNumber ('-' :: c :: cs) || (c :: cs).contains ' ' then .ok (.word text)
        else .ok (.unknown text)
      | [(_, mention)] => .ok (.option text mention)
      | several => .error (.ambiguous text (several.map (·.1)))
  | _ => .ok (.word text)

/-- The roles of words. -/
def Section.tokens (s : Section σ) : List String → Except Fault (List (Token σ))
  | [] => .ok []
  | text :: rest =>
    if text = endingText then .ok (.ending :: rest.map .word)
    else do
      let token ← s.classify text
      let tokens ← s.tokens rest
      .ok (token :: tokens)

/-! ## Options -/

/-- What a word with an option holds: options without a value, and behind them an option with a
value, which may still have to come. -/
structure Bundle (σ : Type) where
  flags : List (Switch σ) := []
  valued : Option (Switch σ × Option String) := none

/-- Takes apart what stands behind the letter of an option: its value, or, if it takes none, further
options of one letter. -/
def Section.takeLetters (s : Section σ) (switch : Switch σ) : List Char → Except Fault (Bundle σ)
  | [] =>
    if switch.takesValue then .ok { valued := some (switch, none) } else .ok { flags := [switch] }
  | c :: cs =>
    if switch.takesValue then .ok { valued := some (switch, some (String.ofList (c :: cs))) }
    else
      match s.switch? (String.ofList ['-', c]) with
      | some next => (s.takeLetters next cs).map fun b => { b with flags := switch :: b.flags }
      | none => .error (.superfluous switch.label (String.ofList (c :: cs)))

/-- Takes apart a word with an option.  An option without a value allows nothing to be joined to it
but further letters, even across an equals sign. -/
def Section.takeApart (s : Section σ) (m : Mention σ) : Except Fault (Bundle σ) :=
  match m.attached with
  | none => s.takeLetters m.switch []
  | some [] =>
    if m.switch.takesValue then .ok { valued := some (m.switch, some "") }
    else .error (.superfluous m.switch.label "")
  | some (c :: cs) =>
    if m.switch.takesValue || m.byLetter then s.takeLetters m.switch (c :: cs)
    else .error (.superfluous m.switch.label (String.ofList (c :: cs)))

/-- What an option does that takes no value. -/
def Section.setFlag (s : Section σ) (switch : Switch σ) (state : σ) : Except Stop σ :=
  match switch.effect with
  | .help => .error (.help s.part)
  | .flag set => .ok (set state)
  | .value .. => .error (.refused s.part (.noValue switch.label))

/-- What options do that take no value. -/
def Section.setFlags (s : Section σ) : List (Switch σ) → σ → Except Stop σ
  | [], state => .ok state
  | switch :: rest, state => do
    let state ← s.setFlag switch state
    s.setFlags rest state

/-- What an option does with a value. -/
def Section.setValue (s : Section σ) (switch : Switch σ) (value : String) (state : σ) :
    Except Stop σ :=
  match switch.effect with
  | .value set _ => (set value state).mapError (.refused s.part)
  | _ => s.setFlag switch state

/-- What an option does with a value that is joined to it. -/
def Section.setJoined (s : Section σ) (switch : Switch σ) (value : String) (state : σ) :
    Except Stop σ :=
  match switch.effect with
  | .value _ clear =>
    if value = endingText then .ok (clear state) else s.setValue switch value state
  | _ => s.setFlag switch state

/-! ## Reading -/

/-- How far reading got. -/
structure Progress (σ : Type) where
  state : σ
  hasOperand : Bool := false
  /-- The words that nothing took. -/
  leftOver : List String := []

/-- Leaves a word over. -/
def Progress.leave (p : Progress σ) (text : String) : Progress σ :=
  { p with leftOver := p.leftOver ++ [text] }

/-- Takes a word as the operand. -/
def Progress.take (p : Progress σ) (set : String → σ → σ) (text : String) : Progress σ :=
  { p with state := set text p.state, hasOperand := true }

/-- Takes words as a command. -/
def Progress.command (p : Progress σ) (set : List String → σ → Except Stop σ)
    (words : List String) : Except Stop (Progress σ) :=
  (set words p.state).map fun state => { p with state, hasOperand := true }

/-- Reads tokens. -/
def Section.consume (s : Section σ) : List (Token σ) → Progress σ → Except Stop (Progress σ)
  | [], p => .ok p
  | .unknown text :: rest, p => s.consume rest (p.leave text)
  | .word text :: rest, p =>
    match s.operand, p.hasOperand with
    | .command set, false => p.command set (text :: rest.map Token.text)
    | .word _ set, false =>
      match rest with
      | .ending :: rest => s.consume rest (p.take set text)
      | rest => s.consume rest (p.take set text)
    | _, _ => s.consume rest (p.leave text)
  | .ending :: rest, p =>
    match s.operand, p.hasOperand, rest with
    | .command set, false, next :: rest =>
      p.command set (endingText :: next.text :: rest.map Token.text)
    | .word _ set, false, next :: rest => s.consume rest (p.take set next.text)
    | _, _, rest => s.consume rest (p.leave endingText)
  | .option _ mention :: rest, p =>
    match s.takeApart mention with
    | .error cause => .error (.refused s.part cause)
    | .ok b =>
      match b.valued, rest with
      | none, rest => do
        let state ← s.setFlags b.flags p.state
        s.consume rest { p with state }
      | some (switch, some value), rest => do
        let state ← s.setFlags b.flags p.state
        let state ← s.setJoined switch value state
        s.consume rest { p with state }
      | some (switch, none), .word value :: rest => do
        let state ← s.setFlags b.flags p.state
        let state ← s.setValue switch value state
        s.consume rest { p with state }
      | some (switch, none), _ => .error (.refused s.part (.noValue switch.label))

/-- Reads words from a state on and gives the new state and the words that are left over. -/
def Section.read (s : Section σ) (words : List String) (state : σ) :
    Except Stop (σ × List String) :=
  match s.tokens words with
  | .error cause => .error (.refused s.part cause)
  | .ok tokens => do
    let p ← s.consume tokens { state }
    match s.operand, p.hasOperand with
    | .word label _, false => .error (.refused s.part (.missing label))
    | _, _ => .ok (p.state, p.leftOver)

end

end HoneypotAudit.CommandLine
