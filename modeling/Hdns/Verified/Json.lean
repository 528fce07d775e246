import Hdns.Verified.Replacer

/-!
# JSON texts

A text is read in two steps.  A lexer with a finite control turns its bytes into
tokens, and a stack machine builds a value from the tokens.  What a string
literal stands for is left open: a literal is the list of its *pieces*, bytes
that stand for themselves and escapes, and the stack machine treats it as a
label.

A text with literals in it is often made by putting other texts inside the
literals of a template.  `lex_replace` says what that does to the tokens.

## Main results

* `parse_map` — the stack machine does not look into literals.
* `lex_replace` — replacing keys inside the literals of a text replaces them in
  the pieces of its tokens.
-/

namespace Hdns.Verified.Json

open Hdns.Verified.GoString
open Hdns.Verified.Replacer

/-! ## Tokens and values -/

/-- A piece of a string literal. -/
inductive Piece where
  /-- A byte that stands for itself. -/
  | raw (b : UInt8)
  /-- An escape: the code unit it stands for. -/
  | unit (u : Nat)
  deriving DecidableEq, Repr

/-- The tokens outside string literals. -/
inductive Symbol where
  | lbrace
  | rbrace
  | lbracket
  | rbracket
  | colon
  | comma
  | null
  | true
  | false
  | number (text : GoString)
  deriving DecidableEq, Repr

/-- A token; string literals are labelled with `α`. -/
inductive Token (α : Type) where
  | symbol (s : Symbol)
  | string (a : α)
  deriving DecidableEq, Repr

/-- A value; strings are labelled with `α`.  The members of an object keep their
order, and a name may occur more than once. -/
inductive Value (α : Type) where
  | null
  | bool (b : Bool)
  | number (text : GoString)
  | string (a : α)
  | array (items : List (Value α))
  | object (members : List (α × Value α))
  deriving Repr

section Map

variable {α β : Type}

def Token.map (f : α → β) : Token α → Token β
  | symbol s => symbol s
  | string a => string (f a)

mutual

/-- The value with other labels. -/
def Value.map (f : α → β) : Value α → Value β
  | .null => .null
  | .bool b => .bool b
  | .number text => .number text
  | .string a => .string (f a)
  | .array items => .array (mapItems f items)
  | .object members => .object (mapMembers f members)

def mapItems (f : α → β) : List (Value α) → List (Value β)
  | [] => []
  | v :: vs => v.map f :: mapItems f vs

def mapMembers (f : α → β) : List (α × Value α) → List (β × Value β)
  | [] => []
  | (a, v) :: ms => (f a, v.map f) :: mapMembers f ms

end

mutual

theorem Value.map_map {γ : Type} (f : α → β) (g : β → γ) :
    ∀ v : Value α, (v.map f).map g = v.map fun a => g (f a)
  | .null => rfl
  | .bool _ => rfl
  | .number _ => rfl
  | .string _ => rfl
  | .array items => congrArg Value.array (mapItems_map f g items)
  | .object members => congrArg Value.object (mapMembers_map f g members)

theorem mapItems_map {γ : Type} (f : α → β) (g : β → γ) :
    ∀ vs : List (Value α), mapItems g (mapItems f vs) =
      mapItems (fun a => g (f a)) vs
  | [] => rfl
  | v :: vs => by
      rw [mapItems, mapItems, mapItems, Value.map_map f g v,
        mapItems_map f g vs]

theorem mapMembers_map {γ : Type} (f : α → β) (g : β → γ) :
    ∀ ms : List (α × Value α), mapMembers g (mapMembers f ms) =
      mapMembers (fun a => g (f a)) ms
  | [] => rfl
  | (a, v) :: ms => by
      rw [mapMembers, mapMembers, mapMembers, Value.map_map f g v,
        mapMembers_map f g ms]

end

theorem mapItems_eq (f : α → β) (vs : List (Value α)) :
    mapItems f vs = vs.map (Value.map f) := by
  induction vs with
  | nil => rfl
  | cons v vs ih => rw [mapItems, ih, List.map_cons]

theorem mapMembers_eq (f : α → β) (ms : List (α × Value α)) :
    mapMembers f ms = ms.map fun m => (f m.1, m.2.map f) := by
  induction ms with
  | nil => rfl
  | cons m ms ih => rw [mapMembers, ih, List.map_cons]

end Map

/-! ## The stack machine -/

/-- What is open around the place that is read; the latest item stands first. -/
inductive Frame (α : Type) where
  | array (items : List (Value α))
  | object (members : List (α × Value α))
  /-- A member whose value is still to come. -/
  | member (members : List (α × Value α)) (name : α)

/-- What comes next. -/
inductive Config (α : Type) where
  /-- A value. -/
  | value (stack : List (Frame α))
  /-- The first item of the frame that was just opened, or its end. -/
  | opened (stack : List (Frame α))
  /-- A comma or the end of the frame. -/
  | next (stack : List (Frame α))
  /-- A name. -/
  | name (stack : List (Frame α))
  | colon (stack : List (Frame α))
  | done (v : Value α)

/-- `maxNestingDepth`. -/
def maxNestingDepth : Nat := 10000

section Machine

variable {α β : Type}

/-- A value is complete. -/
def complete (v : Value α) : List (Frame α) → Option (Config α)
  | [] => some (.done v)
  | .array items :: stack => some (.next (.array (v :: items) :: stack))
  | .member ms name :: stack => some (.next (.object ((name, v) :: ms) :: stack))
  | .object _ :: _ => none

/-- A frame is opened. -/
def enter (frame : Frame α) (stack : List (Frame α)) : Option (Config α) :=
  if stack.length < maxNestingDepth then some (.opened (frame :: stack))
  else none

/-- The token where a value is expected. -/
def beginValue (stack : List (Frame α)) : Token α → Option (Config α)
  | .symbol .lbrace => enter (.object []) stack
  | .symbol .lbracket => enter (.array []) stack
  | .symbol .null => complete .null stack
  | .symbol .true => complete (.bool Bool.true) stack
  | .symbol .false => complete (.bool Bool.false) stack
  | .symbol (.number text) => complete (.number text) stack
  | .string a => complete (.string a) stack
  | .symbol _ => none

/-- The token where a name is expected. -/
def beginName (stack : List (Frame α)) : Token α → Option (Config α)
  | .string a =>
      match stack with
      | .object ms :: stack => some (.colon (.member ms a :: stack))
      | _ => none
  | .symbol _ => none

/-- The machine reads one token. -/
def Config.read : Config α → Token α → Option (Config α)
  | .value stack, t => beginValue stack t
  | .opened (.array items :: stack), .symbol .rbracket =>
      complete (.array items.reverse) stack
  | .opened (.array items :: stack), t => beginValue (.array items :: stack) t
  | .opened (.object ms :: stack), .symbol .rbrace =>
      complete (.object ms.reverse) stack
  | .opened stack, t => beginName stack t
  | .next (.array items :: stack), .symbol .comma =>
      some (.value (.array items :: stack))
  | .next (.array items :: stack), .symbol .rbracket =>
      complete (.array items.reverse) stack
  | .next (.object ms :: stack), .symbol .comma =>
      some (.name (.object ms :: stack))
  | .next (.object ms :: stack), .symbol .rbrace =>
      complete (.object ms.reverse) stack
  | .next _, _ => none
  | .name stack, t => beginName stack t
  | .colon stack, .symbol .colon => some (.value stack)
  | .colon _, _ => none
  | .done _, _ => none

/-- The value of a list of tokens. -/
def parse (ts : List (Token α)) : Option (Value α) :=
  match ts.foldlM Config.read (.value []) with
  | some (.done v) => some v
  | _ => none

def Frame.map (f : α → β) : Frame α → Frame β
  | array items => array (mapItems f items)
  | object ms => object (mapMembers f ms)
  | member ms name => member (mapMembers f ms) (f name)

def Config.map (f : α → β) : Config α → Config β
  | value stack => value (stack.map (Frame.map f))
  | opened stack => opened (stack.map (Frame.map f))
  | next stack => next (stack.map (Frame.map f))
  | name stack => name (stack.map (Frame.map f))
  | colon stack => colon (stack.map (Frame.map f))
  | done v => done (v.map f)

variable {f : α → β}

theorem complete_map (v : Value α) (stack : List (Frame α)) :
    complete (v.map f) (stack.map (Frame.map f)) =
      (complete v stack).map (Config.map f) := by
  cases stack with
  | nil => rfl
  | cons frame stack =>
      cases frame with
      | array items => rfl
      | object ms => rfl
      | member ms name => rfl

theorem enter_map (frame : Frame α) (stack : List (Frame α)) :
    enter (frame.map f) (stack.map (Frame.map f)) =
      (enter frame stack).map (Config.map f) := by
  unfold enter
  rw [List.length_map]
  by_cases hdepth : stack.length < maxNestingDepth
  · rw [if_pos hdepth, if_pos hdepth]
    rfl
  · rw [if_neg hdepth, if_neg hdepth]
    rfl

theorem beginValue_map (stack : List (Frame α)) (t : Token α) :
    beginValue (stack.map (Frame.map f)) (t.map f) =
      (beginValue stack t).map (Config.map f) := by
  cases t with
  | string a => exact complete_map (.string a) stack
  | symbol s =>
      cases s with
      | lbrace => exact enter_map (.object []) stack
      | lbracket => exact enter_map (.array []) stack
      | null => exact complete_map .null stack
      | true => exact complete_map (.bool Bool.true) stack
      | false => exact complete_map (.bool Bool.false) stack
      | number text => exact complete_map (.number text) stack
      | rbrace => rfl
      | rbracket => rfl
      | colon => rfl
      | comma => rfl

theorem beginName_map (stack : List (Frame α)) (t : Token α) :
    beginName (stack.map (Frame.map f)) (t.map f) =
      (beginName stack t).map (Config.map f) := by
  cases t with
  | symbol s => rfl
  | string a =>
      cases stack with
      | nil => rfl
      | cons frame stack =>
          cases frame with
          | array items => rfl
          | object ms => rfl
          | member ms name => rfl

/-- An array ends. -/
theorem complete_array_map (items : List (Value α)) (stack : List (Frame α)) :
    complete (.array (mapItems f items).reverse) (stack.map (Frame.map f)) =
      (complete (.array items.reverse) stack).map (Config.map f) := by
  have harray : Value.array (mapItems f items).reverse =
      (Value.array items.reverse).map f := by
    rw [Value.map, mapItems_eq, mapItems_eq, List.map_reverse]
  rw [harray]
  exact complete_map _ stack

/-- An object ends. -/
theorem complete_object_map (ms : List (α × Value α))
    (stack : List (Frame α)) :
    complete (.object (mapMembers f ms).reverse) (stack.map (Frame.map f)) =
      (complete (.object ms.reverse) stack).map (Config.map f) := by
  have hobject : Value.object (mapMembers f ms).reverse =
      (Value.object ms.reverse).map f := by
    rw [Value.map, mapMembers_eq, mapMembers_eq, List.map_reverse]
  rw [hobject]
  exact complete_map _ stack

theorem read_map (c : Config α) (t : Token α) :
    (c.map f).read (t.map f) = (c.read t).map (Config.map f) := by
  cases c with
  | value stack => exact beginValue_map stack t
  | name stack => exact beginName_map stack t
  | done v => rfl
  | colon stack =>
      cases t with
      | string a => rfl
      | symbol s => cases s <;> rfl
  | opened stack =>
      cases stack with
      | nil => exact beginName_map [] t
      | cons frame stack =>
          cases frame with
          | array items =>
              have hvalue := beginValue_map (f := f) (.array items :: stack) t
              cases t with
              | string a => exact hvalue
              | symbol s =>
                  cases s with
                  | rbracket => exact complete_array_map items stack
                  | _ => exact hvalue
          | object ms =>
              have hname := beginName_map (f := f) (.object ms :: stack) t
              cases t with
              | string a => exact hname
              | symbol s =>
                  cases s with
                  | rbrace => exact complete_object_map ms stack
                  | _ => exact hname
          | member ms name => exact beginName_map (.member ms name :: stack) t
  | next stack =>
      cases stack with
      | nil => rfl
      | cons frame stack =>
          cases frame with
          | array items =>
              cases t with
              | string a => rfl
              | symbol s =>
                  cases s with
                  | rbracket => exact complete_array_map items stack
                  | _ => rfl
          | object ms =>
              cases t with
              | string a => rfl
              | symbol s =>
                  cases s with
                  | rbrace => exact complete_object_map ms stack
                  | _ => rfl
          | member ms name => rfl

theorem foldlM_read_map (ts : List (Token α)) (c : Config α) :
    (ts.map (Token.map f)).foldlM Config.read (c.map f) =
      (ts.foldlM Config.read c).map (Config.map f) := by
  induction ts generalizing c with
  | nil => rfl
  | cons t ts ih =>
      rw [List.map_cons, List.foldlM_cons, List.foldlM_cons, read_map]
      cases c.read t with
      | none => rfl
      | some c' => exact ih c'

/-- **The stack machine** does not look into literals. -/
theorem parse_map (f : α → β) (ts : List (Token α)) :
    parse (ts.map (Token.map f)) = (parse ts).map (Value.map f) := by
  have hread := foldlM_read_map (f := f) ts (.value [])
  unfold parse
  rw [show Config.value [] = (Config.value ([] : List (Frame α))).map f from rfl,
    hread]
  cases ts.foldlM Config.read (.value []) with
  | none => rfl
  | some c =>
      cases c with
      | done v => rfl
      | value stack => rfl
      | opened stack => rfl
      | next stack => rfl
      | name stack => rfl
      | colon stack => rfl

end Machine

/-! ## The lexer -/

/-- The words. -/
inductive Word where
  | null
  | true
  | false
  deriving DecidableEq, Repr

def Word.text : Word → GoString
  | null => "null"
  | true => "true"
  | false => "false"

def Word.symbol : Word → Symbol
  | null => .null
  | true => .true
  | false => .false

/-- How far a number has been read. -/
inductive Digits where
  | minus
  | zero
  | whole
  | point
  | fraction
  | exponent
  | exponentSign
  | exponentDigits
  deriving DecidableEq, Repr

/-- A number can end here. -/
def Digits.complete : Digits → Bool
  | zero | whole | fraction | exponentDigits => Bool.true
  | minus | point | exponent | exponentSign => Bool.false

def isDigit (b : UInt8) : Bool := 0x30 ≤ b && b ≤ 0x39

/-- The number goes on with the byte. -/
def Digits.next (d : Digits) (b : UInt8) : Option Digits :=
  match d with
  | minus =>
      if b = 0x30 then some zero else if isDigit b then some whole else none
  | zero => afterWhole
  | whole => if isDigit b then some whole else afterWhole
  | point => if isDigit b then some fraction else none
  | fraction =>
      if isDigit b then some fraction
      else if b = 0x65 ∨ b = 0x45 then some exponent
      else none
  | exponent =>
      if b = 0x2B ∨ b = 0x2D then some exponentSign
      else if isDigit b then some exponentDigits
      else none
  | exponentSign => if isDigit b then some exponentDigits else none
  | exponentDigits => if isDigit b then some exponentDigits else none
where
  afterWhole : Option Digits :=
    if b = 0x2E then some point
    else if b = 0x65 ∨ b = 0x45 then some exponent
    else none

/-- Where the lexer is. -/
inductive State where
  | between
  | inString
  /-- After a backslash. -/
  | escape
  /-- `n` more hexadecimal digits; the value of those that have been read. -/
  | hex (n : Nat) (value : Nat)
  /-- `n` bytes of the word have been read. -/
  | word (w : Word) (n : Nat)
  | number (d : Digits) (text : GoString)
  deriving DecidableEq, Repr

/-- What the lexer reports. -/
inductive Event where
  | symbol (s : Symbol)
  /-- A string literal begins or ends. -/
  | opened
  | closed
  | piece (p : Piece)
  deriving DecidableEq, Repr

/-- `isSpace`. -/
def isBlank (b : UInt8) : Bool :=
  b = 0x20 || b = 0x09 || b = 0x0D || b = 0x0A

/-- A byte between tokens. -/
def stepBetween (b : UInt8) : Option (State × List Event) :=
  if isBlank b then some (.between, [])
  else if b = 0x7B then some (.between, [.symbol .lbrace])
  else if b = 0x7D then some (.between, [.symbol .rbrace])
  else if b = 0x5B then some (.between, [.symbol .lbracket])
  else if b = 0x5D then some (.between, [.symbol .rbracket])
  else if b = 0x3A then some (.between, [.symbol .colon])
  else if b = 0x2C then some (.between, [.symbol .comma])
  else if b = 0x22 then some (.inString, [.opened])
  else if b = 0x6E then some (.word .null 1, [])
  else if b = 0x74 then some (.word .true 1, [])
  else if b = 0x66 then some (.word .false 1, [])
  else if b = 0x2D then some (.number .minus [b], [])
  else if b = 0x30 then some (.number .zero [b], [])
  else if isDigit b then some (.number .whole [b], [])
  else none

/-- What a byte after a backslash stands for, but for `u`. -/
def simpleEscape (b : UInt8) : Option Nat :=
  if b = 0x22 ∨ b = 0x5C ∨ b = 0x2F then some b.toNat
  else if b = 0x62 then some 0x08
  else if b = 0x66 then some 0x0C
  else if b = 0x6E then some 0x0A
  else if b = 0x72 then some 0x0D
  else if b = 0x74 then some 0x09
  else none

def hexDigit (b : UInt8) : Option Nat :=
  if isDigit b then some (b.toNat - 0x30)
  else if 0x61 ≤ b ∧ b ≤ 0x66 then some (b.toNat - 0x61 + 10)
  else if 0x41 ≤ b ∧ b ≤ 0x46 then some (b.toNat - 0x41 + 10)
  else none

/-- The lexer reads one byte. -/
def step : State → UInt8 → Option (State × List Event)
  | .between, b => stepBetween b
  | .inString, b =>
      if b = 0x22 then some (.between, [.closed])
      else if b = 0x5C then some (.escape, [])
      else if b < 0x20 then none
      else some (.inString, [.piece (.raw b)])
  | .escape, b =>
      if b = 0x75 then some (.hex 4 0, [])
      else (simpleEscape b).map fun u => (.inString, [.piece (.unit u)])
  | .hex n value, b =>
      (hexDigit b).map fun d =>
        if n ≤ 1 then (.inString, [.piece (.unit (16 * value + d))])
        else (.hex (n - 1) (16 * value + d), [])
  | .word w n, b =>
      if w.text[n]? = some b then
        if n + 1 = w.text.length then some (.between, [.symbol w.symbol])
        else some (.word w (n + 1), [])
      else none
  | .number d text, b =>
      match d.next b with
      | some d' => some (.number d' (text ++ [b]), [])
      | none =>
          if d.complete then
            (stepBetween b).map fun r => (r.1, .symbol (.number text) :: r.2)
          else none

/-- The text ends. -/
def finish : State → Option (List Event)
  | .between => some []
  | .number d text =>
      if d.complete then some [.symbol (.number text)] else none
  | _ => none

/-- The pieces up to the end of the literal that is read, and the tokens
behind. -/
abbrev Lexed := List Piece × List (Token (List Piece))

/-- What an event adds at the front. -/
def Event.push : Event → Lexed → Lexed
  | .symbol s, r => ([], .symbol s :: r.2)
  | .opened, r => ([], .string r.1 :: r.2)
  | .closed, r => ([], r.2)
  | .piece p, r => (p :: r.1, r.2)

/-- What the lexer makes of the rest of a text. -/
def lexFrom : State → GoString → Option Lexed
  | st, [] => (finish st).map fun es => es.foldr Event.push ([], [])
  | st, b :: bs =>
      (step st b).bind fun r =>
        (lexFrom r.1 bs).map fun rest => r.2.foldr Event.push rest

/-- The tokens of a text. -/
def lex (s : GoString) : Option (List (Token (List Piece))) :=
  (lexFrom .between s).map (·.2)

/-- The value of a text, its literals in pieces. -/
def template (s : GoString) : Option (Value (List Piece)) :=
  (lex s).bind parse

/-! ## The lexer on parts of a text -/

/-- The lexer reads a part of a text: where it is afterwards, and what it has
reported. -/
def run : State → GoString → Option (State × List Event)
  | st, [] => some (st, [])
  | st, b :: bs =>
      (step st b).bind fun r => (run r.1 bs).map fun r' => (r'.1, r.2 ++ r'.2)

section Run

variable {st st' : State} {es : List Event}

theorem lexFrom_cons {b : UInt8} (h : step st b = some (st', es))
    (s : GoString) :
    lexFrom st (b :: s) =
      (lexFrom st' s).map fun rest => es.foldr Event.push rest := by
  rw [lexFrom, h]
  rfl

theorem lexFrom_append {a : GoString} (h : run st a = some (st', es))
    (s : GoString) :
    lexFrom st (a ++ s) =
      (lexFrom st' s).map fun rest => es.foldr Event.push rest := by
  induction a generalizing st es with
  | nil =>
      obtain ⟨rfl, rfl⟩ := Prod.mk.inj (Option.some.inj h)
      simp
  | cons b a ih =>
      rw [run] at h
      cases hstep : step st b with
      | none =>
          rw [hstep] at h
          cases h
      | some r =>
          rw [hstep] at h
          obtain ⟨r', hr', heq⟩ := Option.map_eq_some_iff.mp h
          obtain ⟨rfl, rfl⟩ := Prod.mk.inj heq
          rw [List.cons_append, lexFrom_cons hstep, ih hr', Option.map_map]
          congr 1
          funext rest
          exact (List.foldr_append ..).symm

theorem lexFrom_append_none {a : GoString} (h : run st a = none)
    (s : GoString) : lexFrom st (a ++ s) = none := by
  induction a generalizing st with
  | nil => cases h
  | cons b a ih =>
      rw [run] at h
      rw [List.cons_append, lexFrom]
      cases hstep : step st b with
      | none => rfl
      | some r =>
          rw [hstep] at h
          have hrest := Option.map_eq_none_iff.mp h
          show (lexFrom r.1 (a ++ s)).map _ = none
          rw [ih hrest]
          rfl

end Run

/-- The text stands inside a literal, where it comes to these pieces. -/
def Literal (a : GoString) (ps : List Piece) : Prop :=
  run .inString a = some (.inString, ps.map .piece)

theorem foldr_push_pieces (ps : List Piece) (r : Lexed) :
    (ps.map Event.piece).foldr Event.push r = (ps ++ r.1, r.2) := by
  induction ps with
  | nil => rfl
  | cons p ps ih =>
      rw [List.map_cons, List.foldr_cons, ih]
      rfl

theorem Literal.lexFrom {a : GoString} {ps : List Piece} (h : Literal a ps)
    (s : GoString) :
    lexFrom .inString (a ++ s) =
      (lexFrom .inString s).map fun r => (ps ++ r.1, r.2) := by
  rw [lexFrom_append h]
  congr 1
  funext r
  exact foldr_push_pieces ps r

theorem Literal.append {a a' : GoString} {ps ps' : List Piece}
    (h : Literal a ps) (h' : Literal a' ps') : Literal (a ++ a') (ps ++ ps') := by
  have hrun : ∀ (a : GoString) (st : State) (es : List Event),
      run st a = some (.inString, es) →
        run st (a ++ a') = some (.inString, es ++ ps'.map .piece) := by
    intro a
    induction a with
    | nil =>
        intro st es hst
        obtain ⟨rfl, rfl⟩ := Prod.mk.inj (Option.some.inj hst)
        exact h'
    | cons b a ih =>
        intro st es hst
        rw [run] at hst
        rw [List.cons_append, run]
        cases hstep : step st b with
        | none =>
            rw [hstep] at hst
            cases hst
        | some r =>
            rw [hstep] at hst
            obtain ⟨r', hr', heq⟩ := Option.map_eq_some_iff.mp hst
            obtain ⟨hstate, rfl⟩ := Prod.mk.inj heq
            have hrest := ih r.1 r'.2 (by rw [hr', ← hstate])
            show (run r.1 (a ++ a')).map _ = _
            rw [hrest, Option.map_some, List.append_assoc]
  rw [Literal, List.map_append]
  exact hrun a .inString _ h

/-- Bytes that stand for themselves in a literal. -/
def Unescaped (b : UInt8) : Prop := ¬b < 0x20 ∧ b ≠ 0x22 ∧ b ≠ 0x5C

instance (b : UInt8) : Decidable (Unescaped b) :=
  inferInstanceAs (Decidable (_ ∧ _))

theorem step_unescaped {b : UInt8} (h : Unescaped b) :
    step .inString b = some (.inString, [.piece (.raw b)]) := by
  rw [step, if_neg h.2.1, if_neg h.2.2, if_neg h.1]

theorem literal_raw {a : GoString} (h : ∀ b ∈ a, Unescaped b) :
    Literal a (a.map .raw) := by
  induction a with
  | nil => rfl
  | cons b a ih =>
      have hb : Literal [b] [.raw b] := by
        rw [Literal, run, step_unescaped (h b List.mem_cons_self)]
        rfl
      exact hb.append (ih fun c hc => h c (List.mem_cons_of_mem b hc))

/-! ## Replacing keys in the literals of a text -/

/-- A key that can only stand inside a literal, where its bytes stand for
themselves. -/
structure Slot (k : GoString) : Prop where
  unescaped : ∀ b ∈ k, Unescaped b
  inside : ∀ st, st ≠ .inString → run st k = none

/-- Outside a literal a brace is a token, or an error. -/
theorem step_brace {st : State} (hst : st ≠ .inString) :
    step st 0x7B = none ∨ ∃ es, step st 0x7B = some (.between, es) := by
  cases st with
  | inString => exact absurd rfl hst
  | between => exact .inr ⟨_, rfl⟩
  | escape => exact .inl rfl
  | hex n v => exact .inl rfl
  | word w n =>
      have hbrace : w.text[n]? ≠ some 0x7B := by
        intro heq
        have hmem : 0x7B ∈ w.text := List.mem_of_getElem? heq
        cases w with
        | null => exact absurd hmem (by decide)
        | true => exact absurd hmem (by decide)
        | false => exact absurd hmem (by decide)
      left
      rw [step, if_neg hbrace]
  | number d text =>
      have hnext : d.next 0x7B = none := by
        cases d <;> rfl
      rw [step, hnext]
      by_cases hd : d.complete = Bool.true
      · right
        exact ⟨_, if_pos hd⟩
      · left
        exact if_neg hd

/-- A key in braces can only stand inside a literal if what follows the first
brace is no beginning of a value. -/
theorem Slot.of_brace {k : GoString} (hunescaped : ∀ b ∈ k, Unescaped b)
    (h : run .between k = none) : Slot (0x7B :: k) where
  unescaped := by
    intro b hb
    cases List.mem_cons.mp hb with
    | inl heq => rw [heq]; decide
    | inr hmem => exact hunescaped b hmem
  inside := by
    intro st hst
    rw [run]
    cases step_brace hst with
    | inl hnone =>
        rw [hnone]
        rfl
    | inr hsome =>
        obtain ⟨es, hes⟩ := hsome
        rw [hes]
        show (run .between k).map _ = none
        rw [h]
        rfl

/-- The keys in pieces, with the pieces that take their place. -/
def pieceKeys (keys : List GoString) (pieces : GoString → List Piece) :
    List (List Piece × List Piece) :=
  keys.map fun k => (k.map .raw, pieces k)

/-- The tokens with the keys in their literals replaced. -/
def substitute (pairs : List (List Piece × List Piece)) (r : Lexed) : Lexed :=
  (replace pairs r.1, r.2.map (Token.map (replace pairs)))

section Keys

variable {keys : List GoString} {pieces : GoString → List Piece}

theorem raw_injective : Function.Injective Piece.raw :=
  fun _ _ h => Piece.raw.inj h

theorem mem_keysOf_pieceKeys {ks : List Piece} :
    ks ∈ keysOf (pieceKeys keys pieces) ↔ ∃ k ∈ keys, k.map .raw = ks := by
  simp [keysOf, pieceKeys]

theorem separate_pieceKeys (hsep : Separate keys) :
    Separate (keysOf (pieceKeys keys pieces)) where
  nonempty := by
    intro ks hks
    obtain ⟨k, hk, rfl⟩ := mem_keysOf_pieceKeys.mp hks
    rw [ne_eq, List.map_eq_nil_iff]
    exact hsep.nonempty k hk
  prefixFree := by
    intro ks hks ks' hks' hprefix
    obtain ⟨k, hk, rfl⟩ := mem_keysOf_pieceKeys.mp hks
    obtain ⟨k', hk', rfl⟩ := mem_keysOf_pieceKeys.mp hks'
    rw [List.prefix_map_iff_of_injective raw_injective] at hprefix
    rw [hsep.prefixFree k hk k' hk' hprefix]

theorem value_pieceKeys {k : GoString} (hk : k ∈ keys) :
    value (pieceKeys keys pieces) (k.map .raw) = pieces k := by
  rw [value, pieceKeys]
  induction keys with
  | nil => exact absurd hk List.not_mem_nil
  | cons k' keys ih =>
      rw [List.map_cons, List.lookup_cons]
      by_cases heq : k = k'
      · rw [heq, beq_self_eq_true]
        rfl
      · have hne : k.map Piece.raw ≠ k'.map .raw :=
          fun h => heq (List.map_injective_iff.mpr raw_injective h)
        rw [beq_false_of_ne hne]
        exact ih ((List.mem_cons.mp hk).resolve_left heq)

end Keys

/-- There is no piece among the events. -/
def NoPiece (r : Option (State × List Event)) : Prop :=
  ∀ x ∈ r, ∀ p, .piece p ∉ x.2

theorem noPiece_some {st : State} {es : List Event}
    (h : ∀ p, .piece p ∉ es) : NoPiece (some (st, es)) := by
  intro x hx
  obtain rfl := Option.mem_some.mp hx
  exact h

theorem noPiece_none : NoPiece none := nofun

theorem noPiece_ite {c : Prop} [Decidable c]
    {r r' : Option (State × List Event)} (h : NoPiece r) (h' : NoPiece r') :
    NoPiece (if c then r else r') := by
  by_cases hc : c
  · rw [if_pos hc]
    exact h
  · rw [if_neg hc]
    exact h'

theorem stepBetween_noPiece (b : UInt8) : NoPiece (stepBetween b) := by
  unfold stepBetween
  repeat' apply noPiece_ite
  all_goals first
    | exact noPiece_none
    | exact noPiece_some (by simp)

theorem step_word_noPiece (w : Word) (n : Nat) (b : UInt8) :
    NoPiece (step (.word w n) b) := by
  rw [step]
  repeat' apply noPiece_ite
  all_goals first
    | exact noPiece_none
    | exact noPiece_some (by simp)

theorem step_number_noPiece (d : Digits) (text : GoString) (b : UInt8) :
    NoPiece (step (.number d text) b) := by
  rw [step]
  cases d.next b with
  | some d' => exact noPiece_some (by simp)
  | none =>
      apply noPiece_ite
      · intro x hx p
        obtain ⟨r, hr, rfl⟩ := Option.map_eq_some_iff.mp hx
        have hnone := stepBetween_noPiece b r hr p
        simp [hnone]
      · exact noPiece_none

theorem finish_noPiece {st : State} {es : List Event}
    (h : finish st = some es) : ∀ p, .piece p ∉ es := by
  cases st with
  | between => simp [← Option.some.inj h]
  | number d text =>
      rw [finish] at h
      by_cases hd : d.complete = Bool.true
      · rw [if_pos hd] at h
        simp [← Option.some.inj h]
      · rw [if_neg hd] at h
        cases h
  | inString => cases h
  | escape => cases h
  | hex n v => cases h
  | word w n => cases h

/-- What a byte makes the lexer report: one piece, of a byte that stands for
itself only inside a literal, or no piece. -/
theorem step_events {st st' : State} {b : UInt8} {es : List Event}
    (h : step st b = some (st', es)) :
    (es = [.piece (.raw b)] ∧ st = .inString ∧ st' = .inString) ∨
      (∃ u, es = [.piece (.unit u)] ∧ st ≠ .inString) ∨
        ∀ p, .piece p ∉ es := by
  have hmem : (st', es) ∈ step st b := h
  cases st with
  | between => exact .inr (.inr (stepBetween_noPiece b _ hmem))
  | word w n => exact .inr (.inr (step_word_noPiece w n b _ hmem))
  | number d text => exact .inr (.inr (step_number_noPiece d text b _ hmem))
  | inString =>
      rw [step] at h
      by_cases hquote : b = 0x22
      · rw [if_pos hquote] at h
        right; right
        exact noPiece_some (by simp) _ h
      · rw [if_neg hquote] at h
        by_cases hslash : b = 0x5C
        · rw [if_pos hslash] at h
          right; right
          exact noPiece_some (by simp) _ h
        · rw [if_neg hslash] at h
          by_cases hcontrol : b < 0x20
          · rw [if_pos hcontrol] at h
            cases h
          · rw [if_neg hcontrol] at h
            obtain ⟨rfl, rfl⟩ := Prod.mk.inj (Option.some.inj h)
            exact .inl ⟨rfl, rfl, rfl⟩
  | escape =>
      rw [step] at h
      by_cases hu : b = 0x75
      · rw [if_pos hu] at h
        right; right
        exact noPiece_some (by simp) _ h
      · rw [if_neg hu] at h
        obtain ⟨u, -, heq⟩ := Option.map_eq_some_iff.mp h
        right; left
        exact ⟨u, (Prod.mk.inj heq).2.symm, nofun⟩
  | hex n v =>
      rw [step] at h
      obtain ⟨d, -, heq⟩ := Option.map_eq_some_iff.mp h
      right
      by_cases hlast : n ≤ 1
      · rw [if_pos hlast] at heq
        left
        exact ⟨_, (Prod.mk.inj heq).2.symm, nofun⟩
      · rw [if_neg hlast] at heq
        right
        simp [← (Prod.mk.inj heq).2]

/-- The lexer is in the middle of an escape. -/
inductive Escaping : State → Prop where
  | escape : Escaping .escape
  | hex (n value : Nat) : Escaping (.hex n value)

/-- What an escape adds to a literal is no byte that stands for itself. -/
theorem Escaping.unit_first {st : State} (hst : Escaping st) {s : GoString}
    {r : Lexed} (h : lexFrom st s = some r) :
    ∃ u ps, r.1 = .unit u :: ps := by
  induction s generalizing st r with
  | nil =>
      cases hst with
      | escape => cases h
      | hex n v => cases h
  | cons b s ih =>
      rw [lexFrom] at h
      obtain ⟨⟨st', es⟩, hstep, hrest⟩ := Option.bind_eq_some_iff.mp h
      obtain ⟨rest, hlex, rfl⟩ := Option.map_eq_some_iff.mp hrest
      cases hst with
      | escape =>
          rw [step] at hstep
          by_cases hu : b = 0x75
          · rw [if_pos hu] at hstep
            obtain ⟨rfl, rfl⟩ := Prod.mk.inj (Option.some.inj hstep)
            exact ih (.hex 4 0) hlex
          · rw [if_neg hu] at hstep
            obtain ⟨u, -, heq⟩ := Option.map_eq_some_iff.mp hstep
            obtain ⟨-, rfl⟩ := Prod.mk.inj heq
            exact ⟨u, rest.1, rfl⟩
      | hex n v =>
          rw [step] at hstep
          obtain ⟨d, -, heq⟩ := Option.map_eq_some_iff.mp hstep
          by_cases hlast : n ≤ 1
          · rw [if_pos hlast] at heq
            obtain ⟨-, rfl⟩ := Prod.mk.inj heq
            exact ⟨_, rest.1, rfl⟩
          · rw [if_neg hlast] at heq
            obtain ⟨rfl, rfl⟩ := Prod.mk.inj heq
            exact ih (.hex _ _) hlex

/-- Bytes that stand for themselves at the front of a literal stand there in the
text. -/
theorem prefix_of_raw {k s : GoString} {r : Lexed}
    (h : lexFrom .inString s = some r) (hk : k.map .raw <+: r.1) : k <+: s := by
  induction k generalizing s r with
  | nil => exact List.nil_prefix
  | cons c k ih =>
      obtain ⟨qs, hqs⟩ := hk
      cases s with
      | nil => cases h
      | cons b s =>
          rw [lexFrom] at h
          obtain ⟨⟨st', es⟩, hstep, hrest⟩ := Option.bind_eq_some_iff.mp h
          obtain ⟨rest, hlex, rfl⟩ := Option.map_eq_some_iff.mp hrest
          rw [step] at hstep
          by_cases hquote : b = 0x22
          · rw [if_pos hquote] at hstep
            obtain ⟨rfl, rfl⟩ := Prod.mk.inj (Option.some.inj hstep)
            cases hqs
          · rw [if_neg hquote] at hstep
            by_cases hslash : b = 0x5C
            · rw [if_pos hslash] at hstep
              obtain ⟨rfl, rfl⟩ := Prod.mk.inj (Option.some.inj hstep)
              obtain ⟨u, ps, hunit⟩ := Escaping.escape.unit_first hlex
              rw [List.foldr_nil, hunit] at hqs
              cases hqs
            · rw [if_neg hslash] at hstep
              by_cases hcontrol : b < 0x20
              · rw [if_pos hcontrol] at hstep
                cases hstep
              · rw [if_neg hcontrol] at hstep
                obtain ⟨rfl, rfl⟩ := Prod.mk.inj (Option.some.inj hstep)
                obtain ⟨hb, hps⟩ := List.cons.inj hqs
                obtain rfl := Piece.raw.inj hb
                rw [List.cons_prefix_cons]
                exact ⟨rfl, ih hlex ⟨qs, hps⟩⟩

section NoKey

variable {keys : List GoString} {pieces : GoString → List Piece}

/-- A key in the pieces of a literal would be a key in the text. -/
theorem no_key_of_raw (hsep : Separate keys) {b : UInt8} {s : GoString}
    {r : Lexed} (hnone : ∀ k ∈ keys, ¬k <+: b :: s)
    (hlex : lexFrom .inString s = some r) :
    ∀ ks ∈ keysOf (pieceKeys keys pieces), ¬ks <+: .raw b :: r.1 := by
  intro ks hks hprefix
  obtain ⟨k, hk, rfl⟩ := mem_keysOf_pieceKeys.mp hks
  cases k with
  | nil => exact hsep.nonempty [] hk rfl
  | cons c k =>
      rw [List.map_cons, List.cons_prefix_cons] at hprefix
      obtain rfl := Piece.raw.inj hprefix.1
      exact hnone _ hk (List.cons_prefix_cons.mpr
        ⟨rfl, prefix_of_raw hlex hprefix.2⟩)

/-- No key begins with an escape. -/
theorem no_key_of_unit (hsep : Separate keys) (u : Nat) (ps : List Piece) :
    ∀ ks ∈ keysOf (pieceKeys keys pieces), ¬ks <+: .unit u :: ps := by
  intro ks hks hprefix
  obtain ⟨k, hk, rfl⟩ := mem_keysOf_pieceKeys.mp hks
  cases k with
  | nil => exact hsep.nonempty [] hk rfl
  | cons c k => cases (List.cons_prefix_cons.mp hprefix).1

end NoKey

section Replacing

variable {pairs : List (List Piece × List Piece)}

/-- Events without pieces come to the same before and after. -/
theorem foldr_push_substitute {es : List Event} (h : ∀ p, .piece p ∉ es)
    (r : Lexed) :
    es.foldr Event.push (substitute pairs r) =
      substitute pairs (es.foldr Event.push r) := by
  induction es with
  | nil => rfl
  | cons e es ih =>
      have hes : ∀ p, .piece p ∉ es :=
        fun p hp => h p (List.mem_cons_of_mem e hp)
      rw [List.foldr_cons, List.foldr_cons, ih hes]
      cases e with
      | symbol s => rfl
      | opened => rfl
      | closed => rfl
      | piece p => exact absurd List.mem_cons_self (h p)

/-- A piece that begins no key comes to the same before and after. -/
theorem push_piece_substitute {p : Piece} {r : Lexed}
    (h : ∀ ks ∈ keysOf pairs, ¬ks <+: p :: r.1) :
    Event.push (.piece p) (substitute pairs r) =
      substitute pairs (Event.push (.piece p) r) := by
  show (p :: replace pairs r.1, _) = (replace pairs (p :: r.1), _)
  rw [replace_element h]
  rfl

end Replacing

/-- **Replacing keys** that stand in the literals of a text replaces them in the
pieces of its tokens, and leaves the other tokens alone. -/
theorem lexFrom_replace {pairs : List (GoString × GoString)}
    {pieces : GoString → List Piece} (hsep : Separate (keysOf pairs))
    (hslot : ∀ k ∈ keysOf pairs, Slot k) {s : GoString}
    (hliteral : ∀ k ∈ keysOf pairs, k <:+: s →
      Literal (value pairs k) (pieces k)) {st : State} {r : Lexed}
    (h : lexFrom st s = some r) :
    lexFrom st (replace pairs s) =
      some (substitute (pieceKeys (keysOf pairs) pieces) r) := by
  induction s using hsep.induct generalizing st r with
  | nil =>
      rw [replace_nil, h]
      rw [lexFrom] at h
      obtain ⟨es, hes, rfl⟩ := Option.map_eq_some_iff.mp h
      rw [← foldr_push_substitute (finish_noPiece hes)]
      rfl
  | key k hk s ih =>
      have hstate : st = .inString := by
        by_contra hne
        rw [lexFrom_append_none ((hslot k hk).inside st hne)] at h
        cases h
      subst hstate
      rw [(literal_raw (hslot k hk).unescaped).lexFrom] at h
      obtain ⟨rest, hlex, rfl⟩ := Option.map_eq_some_iff.mp h
      have hvalue := hliteral k hk (List.prefix_append k s).isInfix
      have hrest := ih (fun k' hk' hinf => hliteral k' hk'
        (hinf.trans (List.suffix_append k s).isInfix)) hlex
      rw [replace_key hsep hk, hvalue.lexFrom, hrest]
      simp only [substitute, Option.map_some]
      rw [replace_key (separate_pieceKeys hsep)
        (mem_keysOf_pieceKeys.mpr ⟨k, hk, rfl⟩), value_pieceKeys hk]
  | element b s hnone ih =>
      rw [lexFrom] at h
      obtain ⟨⟨st', es⟩, hstep, hrest⟩ := Option.bind_eq_some_iff.mp h
      obtain ⟨rest, hlex, rfl⟩ := Option.map_eq_some_iff.mp hrest
      have hsuffix := ih (fun k hk hinf => hliteral k hk
        (hinf.trans (List.suffix_cons b s).isInfix)) hlex
      rw [replace_element hnone, lexFrom_cons hstep, hsuffix, Option.map_some]
      congr 1
      rcases step_events hstep with ⟨rfl, -, rfl⟩ | ⟨u, rfl, -⟩ | hes
      · exact push_piece_substitute (no_key_of_raw hsep hnone hlex)
      · exact push_piece_substitute (no_key_of_unit hsep u _)
      · exact foldr_push_substitute hes rest

/-- The value of a text whose keys are replaced. -/
theorem template_replace {pairs : List (GoString × GoString)}
    {pieces : GoString → List Piece} (hsep : Separate (keysOf pairs))
    (hslot : ∀ k ∈ keysOf pairs, Slot k) {s : GoString}
    (hliteral : ∀ k ∈ keysOf pairs, k <:+: s →
      Literal (value pairs k) (pieces k)) {v : Value (List Piece)}
    (h : template s = some v) :
    template (replace pairs s) =
      some (v.map (replace (pieceKeys (keysOf pairs) pieces))) := by
  obtain ⟨ts, hts, hparse⟩ := Option.bind_eq_some_iff.mp h
  obtain ⟨r, hr, rfl⟩ := Option.map_eq_some_iff.mp hts
  have hreplaced := lexFrom_replace hsep hslot hliteral hr
  rw [template, lex, hreplaced]
  show parse (r.2.map (Token.map _)) = _
  rw [parse_map, hparse]
  rfl

end Hdns.Verified.Json
