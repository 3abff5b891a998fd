import FeatureTransform.Lua.Parse

/-!
# Parsers at work

A parser is followed step by step: what the first part takes of the tokens, the second does not see.
An expression has to be followed by something that does not go on with it; at the end of a line of
the programs that the library puts together that is the end, a name or a function.
-/

namespace FeatureTransform.Lua

namespace Parser

variable {α β : Type} {state middle next : ParserState}

theorem bind_ok {x : Parser α} {a : α} (f : α → Parser β) (h : x state = .ok (a, middle)) :
    (x >>= f) state = f a middle := by
  change Except.bind (x state) _ = _
  rw [h]
  rfl

/-- A loop of the parser goes on behind a step that asks for it, where that step has stopped. -/
theorem loop_next {step : α → Parser (α ⊕ β)} {a b : α} (fuel : Nat)
    (h : step a state = .ok (.inl b, next)) :
    loop step (fuel + 1) a state = loop step fuel b next := by
  rw [loop]
  exact bind_ok _ h

theorem loop_done {step : α → Parser (α ⊕ β)} {a : α} {b : β} (fuel : Nat)
    (h : step a state = .ok (.inr b, next)) :
    loop step (fuel + 1) a state = .ok (b, next) := by
  rw [loop]
  exact bind_ok _ h

end Parser

namespace Parsers

/-- Tokens that do not go on with an expression. -/
inductive Ends : List Lexeme → Prop where
  /-- there are none -/
  | nil : Ends []
  /-- a name -/
  | name (x : String) (line : Nat) (rest : List Lexeme) : Ends (⟨.name x, line⟩ :: rest)
  /-- a function -/
  | function (line : Nat) (rest : List Lexeme) : Ends (⟨.mark "function", line⟩ :: rest)

variable {p : Parsers} {state next : ParserState}

/-- A block goes on behind a statement that is no `return`, which would have to be the last one. -/
theorem blockStep_next {stat : Stat} (done : List Stat)
    (hend : atBlockEnd state = .ok (false, state))
    (hstat : p.statement state = .ok (some stat, next))
    (hreturn : ∀ values, stat ≠ .return values) :
    p.blockStep done state = .ok (.inl (stat :: done), next) := by
  rw [blockStep]
  refine (Parser.bind_ok _ hend).trans ?_
  refine (Parser.bind_ok _ hstat).trans ?_
  cases stat <;> first | rfl | exact absurd rfl (hreturn _)

end Parsers

end FeatureTransform.Lua
