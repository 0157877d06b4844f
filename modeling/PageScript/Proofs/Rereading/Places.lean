import PageScript.Source.Parser

/-! # Places among the tokens of an expression

Behind some tokens of an expression, its open brackets and the last token tell where a parser stands.  A
bracket lifts the restriction that `in` is no operator if it opens arguments, a parenthesis, the key of a
member or the body of a function, but not if it opens an array or object literal.  The word `in` is an
operator behind an operand, and a name or the key of a property otherwise.
-/

set_option autoImplicit false

namespace PageScript

/-- What the last token before a place was. -/
inductive Before where
  | point | operand | closing | change | semicolon | other
  deriving DecidableEq, Repr

namespace Before

/-- Whether an operand may end here that takes suffixes. -/
def endsOperand : Before → Bool
  | .operand | .closing => true
  | _ => false

/-- Whether an expression may end here. -/
def endsExpression : Before → Bool
  | .operand | .closing | .change => true
  | _ => false

/-- Whether an operand may begin here. -/
def opensOperand : Before → Bool
  | .change | .semicolon | .other => true
  | _ => false

/-- What comes before the place behind a token. -/
def after (b : Before) : Token → Before
  | .mark .dot => .point
  | .mark .semicolon => .semicolon
  | .mark .rightParen => .closing
  | .mark .rightBracket | .mark .rightBrace => .operand
  | .mark .increment | .mark .decrement => .change
  | .mark _ => .other
  | .keyword .thisWord => .operand
  | .keyword _ => if b = .point then .operand else .other
  | _ => .operand

theorem after_point (w : Keyword) : after .point (.keyword w) = .operand := by cases w <;> rfl

theorem after_keyword_ne_semicolon (b : Before) (w : Keyword) : b.after (.keyword w) ≠ .semicolon := by
  cases b <;> cases w <;> decide

theorem endsExpression_of_endsOperand {b : Before} (h : b.endsOperand = true) : b.endsExpression = true := by
  cases b <;> first | rfl | cases h

theorem ne_point_of_opensOperand {b : Before} (h : b.opensOperand = true) : b ≠ .point := by
  rintro rfl
  cases h

theorem ne_point_of_endsExpression {b : Before} (h : b.endsExpression = true) : b ≠ .point := by
  rintro rfl
  cases h

theorem not_endsOperand_of_opensOperand {b : Before} (h : b.opensOperand = true) : b.endsOperand = false := by
  cases b <;> first | rfl | cases h

theorem not_closing_of_opensOperand {b : Before} (h : b.opensOperand = true) : (b == .closing) = false := by
  cases b <;> first | rfl | cases h

end Before

/-- A place among tokens: for each open bracket, the innermost first, whether it lifts the restriction on `in`,
and what comes before the place. -/
structure Place where
  brackets : List Bool
  before : Before

namespace Place

/-- The place where an expression begins. -/
def start : Place := ⟨[], .other⟩

/-- The brackets that are open behind a token. -/
def bracketsAfter (q : Place) : Token → List Bool
  | .mark .leftParen => true :: q.brackets
  | .mark .leftBracket => q.before.endsOperand :: q.brackets
  | .mark .leftBrace => (q.before == .closing) :: q.brackets
  | .mark .rightParen | .mark .rightBracket | .mark .rightBrace => q.brackets.tail
  | _ => q.brackets

/-- The place behind a token. -/
def next (q : Place) (t : Token) : Place := ⟨q.bracketsAfter t, q.before.after t⟩

/-- Whether a token at a place is no operator `in`, or stands inside a bracket that lifts the restriction. -/
def shelters (q : Place) (t : Token) : Bool :=
  !(t.isKeyword .inWord && q.before.endsExpression) || q.brackets.contains true

/-- Whether all operators `in` among tokens from a place on are sheltered. -/
def sheltersAll : Place → List Token → Bool
  | _, [] => true
  | q, t :: ts => q.shelters t && (q.next t).sheltersAll ts

theorem shelters_of_sheltersAll {q : Place} {us ts : List Token} {t : Token}
    (h : q.sheltersAll (us ++ t :: ts) = true) : (us.foldl next q).shelters t = true := by
  induction us generalizing q with
  | nil =>
    rw [List.nil_append, sheltersAll, Bool.and_eq_true] at h
    exact h.1
  | cons u us ih =>
    rw [List.cons_append, sheltersAll, Bool.and_eq_true] at h
    exact ih h.2

end Place

/-! ## Operators -/

/-- Whether an operand may begin behind a token, which is no bracket, unless it is the name of a member. -/
structure Token.LeadsOn (t : Token) : Prop where
  notFinish : t ≠ .finish
  brackets : ∀ q : Place, q.bracketsAfter t = q.brackets
  before : ∀ b : Before, b ≠ .point → (b.after t).opensOperand = true

namespace Token.LeadsOn

variable {t : Token}

theorem keyword {w : Keyword} (hw : w ≠ .thisWord) : Token.LeadsOn (.keyword w) where
  notFinish := nofun
  brackets _ := rfl
  before b hb := by cases w <;> first | exact absurd rfl hw | (cases b <;> first | rfl | exact absurd rfl hb)

theorem mark {m : Mark} (hbrackets : ∀ q : Place, q.bracketsAfter (.mark m) = q.brackets)
    (hbefore : ∀ b : Before, (b.after (.mark m)).opensOperand = true) : Token.LeadsOn (.mark m) where
  notFinish := nofun
  brackets := hbrackets
  before b _ := hbefore b

theorem unary {op : UnaryOp} (h : unaryOperator? t = some op) : t.LeadsOn := by
  cases t with
  | mark m => cases m <;> first | exact mark (fun _ => rfl) fun _ => rfl | cases h
  | keyword w => exact keyword (by rintro rfl; cases h)
  | _ => cases h

theorem update {op : UpdateOp} (h : updateOperator? t = some op) :
    t.LeadsOn ∧ ∀ b : Before, b.after t = .change := by
  cases t with
  | mark m => cases m <;> first | exact ⟨mark (fun _ => rfl) fun _ => rfl, fun _ => rfl⟩ | cases h
  | _ => cases h

theorem assignment {op : Option BinaryOp} (h : assignment? t = some op) : t.LeadsOn := by
  cases t with
  | mark m => cases m <;> first | exact mark (fun _ => rfl) fun _ => rfl | cases h
  | _ => cases h

theorem operator {withoutIn : Bool} {tier : Tier} {op : Infix} (h : tier.operator? withoutIn t = some op) :
    t.LeadsOn := by
  cases t with
  | mark m =>
    cases m <;> first | exact mark (fun _ => rfl) fun _ => rfl | (cases tier <;> cases h)
  | keyword w => exact keyword (by rintro rfl; cases h)
  | _ => cases h

end Token.LeadsOn

/-- Only the word `in` is an operator or none as the surroundings have it. -/
theorem Tier.operator?_withoutIn {t : Token} (ht : t.isKeyword .inWord = false) (b b' : Bool) (tier : Tier) :
    tier.operator? b t = tier.operator? b' t := by
  cases t with
  | keyword w => cases w <;> first | rfl | cases ht
  | _ => rfl

/-- Whether every operator `in` of an expression stands inside a bracket that lifts the restriction. -/
def Token.InSheltered (ts : List Token) : Prop := Place.start.sheltersAll ts = true

end PageScript
