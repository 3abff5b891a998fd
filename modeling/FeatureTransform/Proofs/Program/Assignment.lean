import FeatureTransform.Lua.Host
import FeatureTransform.Proofs.Lua.Parse
import FeatureTransform.Proofs.Program.Literal

/-!
# Assignments

The line of an assignment is read as one statement, whatever the name and the value are: a name that
Lua does not take is an index into the table of the global variables.
-/

namespace FeatureTransform

open Lua (Expr Lexeme Reads Stat Token Value)

variable {line : Nat} {rest : Text}

/-! ## Targets -/

/-- The tokens of what is assigned to. -/
def targetTokens (name : String) : List Token :=
  if isIdentifier name then [.name name]
  else [.name "_G", .mark "[", .string name.toUTF8, .mark "]"]

/-- A name that Lua takes is one word, and none of the reserved ones. -/
theorem wordToken_of_isIdentifier {c : Char} {x : Text}
    (h : isIdentifier (String.ofList (c :: x)) = true) :
    Lua.isNameStart c = true ∧ x.all Lua.isNameRest = true ∧
      Lua.wordToken (String.ofList (c :: x)) = .name (String.ofList (c :: x)) := by
  have hkeywords : luaKeywords = Lua.keywords := rfl
  simp only [isIdentifier, String.toList_ofList, hkeywords, Bool.and_eq_true,
    Bool.not_eq_true'] at h
  exact ⟨h.1.1, h.1.2, by rw [Lua.wordToken, h.2]; rfl⟩

/-- The target of an assignment is read in front of the space behind it, be it a name or an index
into the table of the globals. -/
theorem Lua.Reads.target (name : String) :
    Reads line ((assignmentTarget name).toList ++ ' ' :: rest)
      (onLine line (targetTokens name)) line (' ' :: rest) := by
  unfold assignmentTarget targetTokens
  split
  · -- a name that Lua takes is one word
    rename_i h
    obtain ⟨c, x, hx⟩ : ∃ c x, name = String.ofList (c :: x) := by
      cases hlist : name.toList with
      | nil => simp [isIdentifier, hlist] at h
      | cons c x => exact ⟨c, x, by rw [← hlist, String.ofList_toList]⟩
    subst hx
    obtain ⟨hstart, hrest, htoken⟩ := wordToken_of_isIdentifier h
    rw [String.toList_ofList, onLine, List.map_singleton, ← htoken]
    exact .word hstart hrest (Lua.stopsName_cons rfl)
  · -- any other is a text literal between brackets
    have htext : ("_G[" ++ stringLiteral name ++ "]").toList ++ ' ' :: rest =
        '_' :: 'G' :: '[' :: ((stringLiteral name).toList ++ ']' :: ' ' :: rest) := by simp
    have hquoted := Reads.quoted name line (']' :: ' ' :: rest)
    obtain ⟨s, hs⟩ : ∃ s, (stringLiteral name).toList = '"' :: s := by
      simp [stringLiteral]
    rw [htext]
    refine .append (.word (c := '_') (x := ['G']) rfl rfl (Lua.stopsName_cons rfl)) ?_
    rw [hs] at hquoted ⊢
    exact .append (.one rfl) (.append hquoted (.one rfl))

/-! ## Lines -/

/-- A global variable and what it is set to. -/
structure Setting where
  /-- the name of the variable -/
  name : String
  /-- the value -/
  literal : Literal

/-- What a literal looks like in a program. -/
inductive Literal.IsSource : Literal → String → Prop where
  /-- no value -/
  | nil : IsSource .nil "nil"
  /-- a text -/
  | text (s : String) : IsSource (.text s) (stringLiteral s)
  /-- a double -/
  | number (f : Float) : IsSource (.ofFloat f) (numberLiteral f)

theorem Literal.IsSource.reads {ℓ : Literal} {source : String} (h : ℓ.IsSource source) :
    Reads line (source.toList ++ '\n' :: rest) (onLine line ℓ.tokens) line ('\n' :: rest) := by
  cases h with
  | nil => exact .nil
  | text s => exact .quoted s _ _
  | number f => exact .number f

namespace Setting

/-- The tokens of the line of an assignment. -/
def tokens (s : Setting) : List Token := targetTokens s.name ++ .mark "=" :: s.literal.tokens

/-- The line of an assignment is read as a whole. -/
theorem reads {s : Setting} {source : String} (h : s.literal.IsSource source)
    (hrest : ∀ c ∈ rest.head?, c ≠ '\r') :
    Reads line ((assignmentTarget s.name ++ " = " ++ source ++ "\n").toList ++ rest)
      (onLine line s.tokens) (line + 1) rest := by
  have htext : (assignmentTarget s.name ++ " = " ++ source ++ "\n").toList ++ rest =
      (assignmentTarget s.name).toList ++ ' ' :: '=' :: ' ' :: (source.toList ++ '\n' :: rest) := by
    simp
  have htokens : onLine line s.tokens = onLine line (targetTokens s.name) ++
      ([] ++ ([⟨.mark "=", line⟩] ++ ([] ++ (onLine line s.literal.tokens ++ [])))) := by
    simp [onLine, tokens]
  rw [htext, htokens]
  exact .append (.target _) (.append .space (.append (.one rfl) (.append .space
    (.append h.reads (.lineFeed hrest)))))

end Setting

/-! ## Statements -/

/-- What is assigned to. -/
def targetExpr (line : Nat) (name : String) : Expr :=
  if isIdentifier name then .name name line
  else .index (.name "_G" line) (.string name.toUTF8) line

namespace Literal

/-- An expression with its sign. -/
def signExpr (line : Nat) (negative : Bool) (e : Expr) : Expr :=
  if negative then .unary .minus e line else e

/-- The expression of a literal. -/
def expr (line : Nat) : Literal → Expr
  | .nil => .nil
  | .text s => .string s.toUTF8
  | .nan => .paren (.binary (.arith .div) (.number (.int 0)) (.number (.int 0)) line)
  | .huge negative =>
    signExpr line negative (.index (.name "math" line) (.string "huge".toUTF8) line)
  | .numeral negative magnitude => signExpr line negative (.number (.float magnitude))

end Literal

/-- The statement of an assignment. -/
def Setting.stat (line : Nat) (s : Setting) : Stat :=
  .assign [targetExpr line s.name] [s.literal.expr line] line

/-- The tokens of the line of an assignment are its statement. What follows must not go on with an
expression, or it would be taken for a part of the value. -/
theorem Setting.statement_tokens (s : Setting) {tail : List Lexeme} (htail : Lua.Parsers.Ends tail)
    (room line last : Nat) :
    (Lua.Parsers.atMost (room + 6)).statement
        { tokens := onLine line s.tokens ++ tail, last := last } =
      .ok (some (s.stat line), { tokens := tail, last := line }) := by
  obtain ⟨name, literal⟩ := s
  cases hname : isIdentifier name with
  | false =>
    simp only [tokens, targetTokens, stat, targetExpr, hname, Bool.false_eq_true, if_false]
    cases literal with
    | huge negative => cases negative <;> cases htail <;> rfl
    | numeral negative magnitude => cases negative <;> cases htail <;> rfl
    | _ => cases htail <;> rfl
  | true =>
    simp only [tokens, targetTokens, stat, targetExpr, hname, if_true]
    cases literal with
    | huge negative => cases negative <;> cases htail <;> rfl
    | numeral negative magnitude => cases negative <;> cases htail <;> rfl
    | _ => cases htail <;> rfl

/-! ## Line after line -/

namespace Setting

/-- The line of an assignment. -/
def IsLine (s : Setting) (text : String) : Prop :=
  ∃ source, s.literal.IsSource source ∧ text = assignmentTarget s.name ++ " = " ++ source ++ "\n"

/-- The tokens of assignments that follow each other, from the given line on. -/
def lexemes (line : Nat) : List Setting → List Lexeme
  | [] => []
  | s :: rest => onLine line s.tokens ++ lexemes (line + 1) rest

/-- The statements of assignments that follow each other, from the given line on. -/
def stats (line : Nat) : List Setting → List Stat
  | [] => []
  | s :: rest => s.stat line :: stats (line + 1) rest

/-- A line does not begin with what would belong to the end of the line before. -/
theorem head_ne_return {s : Setting} {text : String} (h : s.IsLine text) (rest : Text) :
    ∀ c ∈ (text.toList ++ rest).head?, c ≠ '\r' := by
  obtain ⟨source, -, rfl⟩ := h
  rintro c hc rfl
  cases hname : isIdentifier s.name with
  | false => simp [assignmentTarget, hname] at hc
  | true =>
    cases hlist : s.name.toList with
    | nil => simp [isIdentifier, hlist] at hname
    | cons d x =>
      simp only [assignmentTarget, hname, if_true, String.toList_append, hlist, List.cons_append,
        List.head?_cons, Option.mem_def, Option.some.injEq] at hc
      subst hc
      simp [isIdentifier, hlist] at hname

/-- Lines of assignments are read as their tokens, each on a line of its own, since a text literal
holds no end of a line. -/
theorem reads_lines {settings : List Setting} {lines : List String}
    (h : List.Forall₂ IsLine settings lines) (hrest : ∀ c ∈ rest.head?, c ≠ '\r') (line : Nat) :
    Reads line ((String.join lines).toList ++ rest) (lexemes line settings)
      (line + settings.length) rest := by
  induction h generalizing line with
  | nil => exact .done
  | @cons s text settings lines hline hlines ih =>
    have hnext : ∀ c ∈ ((String.join lines).toList ++ rest).head?, c ≠ '\r' := by
      cases hlines with
      | nil => simpa using hrest
      | cons hfirst _ =>
        rw [String.join_cons, String.toList_append, List.append_assoc]
        exact head_ne_return hfirst _
    obtain ⟨source, hsource, rfl⟩ := hline
    rw [String.join_cons, String.toList_append, List.append_assoc, lexemes, List.length_cons,
      ← Nat.add_assoc, Nat.add_right_comm]
    exact .append (reads hsource hnext) (ih (line + 1))

/-- The line of an assignment begins with a name. -/
theorem exists_tokens_cons (s : Setting) : ∃ x rest, s.tokens = .name x :: rest := by
  unfold tokens targetTokens
  split
  · exact ⟨_, _, rfl⟩
  · exact ⟨_, _, rfl⟩

section Parsing

open Lua.Parser (loop)
open Lua.Parsers (Ends atMost maxLevels)

variable {tail : List Lexeme}

theorem ends_lexemes (htail : Ends tail) (line : Nat) (settings : List Setting) :
    Ends (lexemes line settings ++ tail) := by
  cases settings with
  | nil => exact htail
  | cons s settings =>
    obtain ⟨x, rest, hx⟩ := s.exists_tokens_cons
    rw [lexemes, onLine, hx]
    exact .name _ _ _

/-- A block takes assignments one after another, and stops with what stands behind them. -/
theorem loop_lexemes (settings : List Setting) (htail : Ends tail) (room fuel line last : Nat)
    (done : List Stat) :
    ∃ final, loop (atMost (room + 6)).blockStep (fuel + settings.length) done
        { tokens := lexemes line settings ++ tail, last := last } =
      loop (atMost (room + 6)).blockStep fuel ((stats line settings).reverse ++ done)
        { tokens := tail, last := final } := by
  induction settings generalizing line last done with
  | nil => exact ⟨last, rfl⟩
  | cons s settings ih =>
    obtain ⟨final, hfinal⟩ := ih (line + 1) line (s.stat line :: done)
    -- each line begins with a name, which ends no block
    have hend : Lua.Parsers.atBlockEnd
        { tokens := onLine line s.tokens ++ (lexemes (line + 1) settings ++ tail), last := last } =
          .ok (false, { tokens := onLine line s.tokens ++ (lexemes (line + 1) settings ++ tail)
                        last := last }) := by
      obtain ⟨x, rest, hx⟩ := s.exists_tokens_cons
      rw [onLine, hx]
      rfl
    have hstep := Lua.Parsers.blockStep_next done hend
      (s.statement_tokens (ends_lexemes htail (line + 1) settings) room line last) nofun
    refine ⟨final, ?_⟩
    rw [lexemes, List.append_assoc, List.length_cons, ← Nat.add_assoc,
      Lua.Parser.loop_next _ hstep, hfinal, stats]
    simp

theorem length_le_lexemes (line : Nat) (settings : List Setting) :
    settings.length ≤ (lexemes line settings).length := by
  induction settings generalizing line with
  | nil => exact Nat.le_refl _
  | cons s settings ih =>
    obtain ⟨x, rest, hx⟩ := s.exists_tokens_cons
    have := ih (line + 1)
    simp only [lexemes, onLine, hx, List.map_cons, List.cons_append, List.length_cons,
      List.length_append]
    omega

/-- Tokens that are the last statements of a program, whatever stands in front of them. -/
def Completes (tail : List Lexeme) (after : List Stat) : Prop :=
  ∀ fuel last done, ∃ final,
    loop (atMost maxLevels).blockStep (fuel + tail.length + 1) done
        { tokens := tail, last := last } =
      .ok ((after.reverse ++ done).reverse, { tokens := [], last := final })

theorem completes_nil : Completes [] [] := fun _ last _ => ⟨last, rfl⟩

/-- A program that begins with assignments is these and what its other tokens are. -/
theorem program_lexemes {after : List Stat} (settings : List Setting) (hends : Ends tail)
    (hafter : Completes tail after) (line last : Nat) :
    ((Lua.Parsers.program.run { tokens := lexemes line settings ++ tail, last := last }).map
      Prod.fst : Except Lua.SyntaxFault (List Stat)) = .ok (stats line settings ++ after) := by
  have hlength := length_le_lexemes line settings
  -- a turn of the loop for each line, as lines have tokens, and turns left for what follows
  obtain ⟨fuel, hfuel⟩ := Nat.exists_eq_add_of_le hlength
  obtain ⟨middle, hfirst⟩ := loop_lexemes settings hends 193 (fuel + tail.length + 1) line last []
  obtain ⟨final, hlast⟩ := hafter fuel middle ((stats line settings).reverse ++ [])
  have hblock : (atMost maxLevels).block { tokens := lexemes line settings ++ tail, last := last } =
      .ok (stats line settings ++ after, { tokens := [], last := final }) := by
    change loop (atMost maxLevels).blockStep ((lexemes line settings ++ tail).length + 1) [] _ = _
    have hturns : (lexemes line settings ++ tail).length + 1 =
        fuel + tail.length + 1 + settings.length := by
      rw [List.length_append, hfuel]
      omega
    rw [hturns]
    refine (hfirst.trans hlast).trans ?_
    simp
  have hrun : Lua.Parsers.program { tokens := lexemes line settings ++ tail, last := last } =
      .ok (stats line settings ++ after, { tokens := [], last := final }) := by
    rw [Lua.Parsers.program]
    exact (Lua.Parser.bind_ok _ hblock).trans rfl
  change Except.map Prod.fst (Lua.Parsers.program _) = _
  rw [hrun]
  rfl

end Parsing

/-! ## Whole programs -/

/-- A program text that begins with lines of assignments, as tokens and then as statements. -/
theorem parse_lines {settings : List Setting} {lines : List String} {tail : List Lexeme}
    {after : List Stat} (h : List.Forall₂ IsLine settings lines)
    (hrest : ∀ c ∈ rest.head?, c ≠ '\r')
    (htokens : Lua.tokensFrom rest.length (1 + settings.length) rest = some tail)
    (hends : Lua.Parsers.Ends tail) (hafter : Completes tail after) :
    Lua.parse ((String.join lines).toList ++ rest) = .ok (stats 1 settings ++ after) := by
  have htokens : Lua.tokens? ((String.join lines).toList ++ rest) =
      some (lexemes 1 settings ++ tail) :=
    (reads_lines h hrest 1).tokensFrom htokens (Nat.le_refl _)
  rw [Lua.parse, htokens]
  exact program_lexemes settings hends hafter 1 1

/-- An assignment to a global variable keeps the rules of scope, as it neither declares nor jumps.
-/
theorem jumps?_stat (line : Nat) (s : Setting) :
    (s.stat line).jumps? .program = some [] := by
  have htarget : Lua.targetsAreScoped .program [targetExpr line s.name] = true := by
    unfold targetExpr
    split
    · simp [Lua.targetsAreScoped, Lua.Scope.mayAssign, Lua.Scope.program]
    · simp [Lua.targetsAreScoped, Lua.Expr.isScoped]
  have hvalue : Lua.areScoped .program [s.literal.expr line] = true := by
    cases s.literal with
    | huge negative =>
      cases negative <;> simp [Lua.areScoped, Literal.expr, Literal.signExpr, Lua.Expr.isScoped]
    | numeral negative magnitude =>
      cases negative <;> simp [Lua.areScoped, Literal.expr, Literal.signExpr, Lua.Expr.isScoped]
    | _ => simp [Lua.areScoped, Literal.expr, Lua.Expr.isScoped]
  rw [stat, Lua.Stat.jumps?, htarget, hvalue]
  rfl

theorem blockJumps?_stats {after : List Stat} (settings : List Setting) (line : Nat)
    (before : List Stat)
    (hafter : ∀ before, Lua.blockJumps? .program false before after = some []) :
    Lua.blockJumps? .program false before (stats line settings ++ after) = some [] := by
  induction settings generalizing line before with
  | nil => exact hafter before
  | cons s settings ih =>
    have hscope : Lua.Scope.program.after (s.stat line) = .program := rfl
    rw [stats, List.cons_append, Lua.blockJumps?, jumps?_stat, hscope]
    simp only [Lua.leaving, ih (line + 1)]
    rfl

/-- **Reading.** Lines of assignments are read as assignments, whatever is assigned and whatever
statements follow. So no value that is bound can change what statements a program has. -/
theorem readProgram_lines {settings : List Setting} {lines : List String} {text : String}
    {tail : List Lexeme} {after : List Stat} (h : List.Forall₂ IsLine settings lines)
    (htext : text.toList = (String.join lines).toList ++ rest)
    (hrest : ∀ c ∈ rest.head?, c ≠ '\r')
    (htokens : Lua.tokensFrom rest.length (1 + settings.length) rest = some tail)
    (hends : Lua.Parsers.Ends tail) (hafter : Completes tail after)
    (hscoped : ∀ before, Lua.blockJumps? .program false before after = some []) :
    Lua.readProgram text = .ok (stats 1 settings ++ after) := by
  have hbody : Lua.isScoped (stats 1 settings ++ after) = true := by
    rw [Lua.isScoped, blockJumps?_stats settings 1 [] hscoped]
    rfl
  rw [Lua.readProgram, htext, parse_lines h hrest htokens hends hafter]
  change (if Lua.isScoped _ = true then _ else _) = _
  rw [if_pos hbody]
  rfl

end Setting

end FeatureTransform
