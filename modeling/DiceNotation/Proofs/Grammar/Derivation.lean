import DiceNotation.Expr
import DiceNotation.Token
import Mathlib.Data.List.Induction
/-!
# The grammar of dice notation

The grammar says which sequences of tokens are expressions, and which expressions they are:

* *expression* := *term* ((`+` | `-`) *term*)*
* *term* := *factor* ((`*` | `/`) *factor*)*
* *factor* := `(` *expression* `)` | *throw* | *integer*
* *throw* := [*integer*] `d` (*integer* | `f`) [`!`] [(`k` | `d`) (`h` | `l`) [*integer*]]

A plain integer is below `2 ^ 63` and those in a throw are below `2 ^ 32`; counts of dice and of
sides are not zero. `Derives part tokens e` states that the tokens derive from a part of the grammar
with the tree `e`, in which every chain of operators is grouped to the left.

A chain grows at its right end (`Derives.grow`). That every derivation comes about in this way is
`Derives.chain_induction`, the induction that goes along with a reader from left to right.
-/

namespace DiceNotation

namespace Grammar

/-! ## Throws -/

/-- The count of a throw: an integer, or nothing, which stands for one. -/
inductive Count : List Token → UInt32 → Prop
  | absent : Count [] 1
  | written {n : Nat} (pos : 0 < n) (fits : n < UInt32.size) :
      Count [.integer n] (.ofNatLT n fits)

/-- The sides of a throw: an integer, or `f` for a fate die. -/
inductive Faces : Token → Sides → Prop
  | fate : Faces (.mark .fate) .fate
  | poly {n : Nat} (fits : n < UInt32.size) (pos : 0 < UInt32.ofNatLT n fits) :
      Faces (.integer n) (.poly (.ofNatLT n fits) pos)

/-- What stands after the sides of exploding dice, and of other dice. -/
def bang (explodes : Bool) : List Token := if explodes then [.mark .bang] else []

/-- The mark for keeping and for dropping. -/
def keepMark (keep : Bool) : Mark := if keep then .keep else .d

/-- The mark for the highest and for the lowest dice. -/
def rankMark (highest : Bool) : Mark := if highest then .highest else .lowest

/-- The selection of a throw with the number of selected dice: two marks and an integer, which may
be missing for one, or nothing, where every die counts. -/
inductive Choice : List Token → Selection → UInt32 → Prop
  | absent : Choice [] .all 1
  | bare (keep highest : Bool) :
      Choice [.mark (keepMark keep), .mark (rankMark highest)] (.of keep highest) 1
  | counted (keep highest : Bool) {n : Nat} (fits : n < UInt32.size) :
      Choice [.mark (keepMark keep), .mark (rankMark highest), .integer n] (.of keep highest)
        (.ofNatLT n fits)

/-- A throw up to its selection. -/
inductive Unselected : List Token → Dice → Prop
  | throw {ts : List Token} {t : Token} {count : UInt32} {sides : Sides} (hc : Count ts count)
      (ht : Faces t sides) (explodes : Bool) :
      Unselected (ts ++ .mark .d :: t :: bang explodes) ⟨count, sides, explodes, .all, 1⟩

/-- A throw. -/
inductive Throw : List Token → Dice → Prop
  | select {ts us : List Token} {d : Dice} {selection : Selection} {selected : UInt32}
      (hd : Unselected ts d) (hs : Choice us selection selected) :
      Throw (ts ++ us) { d with selection := selection, selected := selected }

/-- As long as nothing is selected every die counts. -/
lemma Unselected.eq_all {ts : List Token} {d : Dice} (h : Unselected ts d) :
    d = { d with selection := .all, selected := 1 } := by
  cases h
  rfl

/-! ## Derivations -/

/-- An operator of a chain with its right operand, as tokens and as a tree. -/
structure Link where
  /-- The operator. -/
  op : Operator
  /-- The tokens of the operand. -/
  tokens : List Token
  /-- The operand. -/
  operand : Expr

/-- The tokens of the links of a chain. -/
def linkTokens (links : List Link) : List Token :=
  links.flatMap fun link => .mark (.ofOperator link.op) :: link.tokens

/-- The tree of a chain that begins with `first`, grouped to the left. -/
def linkTree (first : Expr) (links : List Link) : Expr :=
  links.foldl (fun left link => .binary left link.op link.operand) first

/-- The tokens derive from the part of the grammar, and the expression is the tree of the
derivation. An expression and a term are chains of operands with the operators of the part between
them. -/
inductive Derives : Part → List Token → Expr → Prop
  | chain {part : Part} {ts : List Token} {first : Expr} {links : List Link}
      (hp : part ≠ .factor) (hfirst : Derives part.operand ts first)
      (hops : ∀ link ∈ links, link.op.precedence = part.precedence)
      (hlinks : ∀ link ∈ links, Derives part.operand link.tokens link.operand) :
      Derives part (ts ++ linkTokens links) (linkTree first links)
  | parens {ts : List Token} {e : Expr} (h : Derives .expression ts e) :
      Derives .factor (.mark .leftParen :: (ts ++ [.mark .rightParen])) e
  | throw {ts : List Token} {d : Dice} (h : Throw ts d) : Derives .factor ts (.dice d)
  | integer {n : Nat} (fits : n < 0x8000000000000000) :
      Derives .factor [.integer n] (.number (.ofNat n fits))

/-! ## Growing chains -/

@[simp] lemma linkTokens_nil : linkTokens [] = [] := rfl

@[simp] lemma linkTree_nil (first : Expr) : linkTree first [] = first := rfl

@[simp] lemma linkTokens_concat (links : List Link) (link : Link) :
    linkTokens (links ++ [link]) =
      linkTokens links ++ .mark (.ofOperator link.op) :: link.tokens := by
  simp [linkTokens]

@[simp] lemma linkTree_concat (first : Expr) (links : List Link) (link : Link) :
    linkTree first (links ++ [link]) = .binary (linkTree first links) link.op link.operand := by
  simp [linkTree]

/-- A factor has no operators. -/
lemma Part.ne_factor_of_precedence {part : Part} {op : Operator}
    (h : op.precedence = part.precedence) : part ≠ .factor := by
  rintro rfl
  cases op <;> cases h

namespace Derives

variable {part : Part} {ts us : List Token} {e left right : Expr} {op : Operator}

/-- An operand alone is a chain. -/
lemma of_operand (hp : part ≠ .factor) (h : Derives part.operand ts e) : Derives part ts e := by
  have hchain : Derives part (ts ++ linkTokens []) (linkTree e []) := chain hp h nofun nofun
  rwa [linkTokens_nil, List.append_nil, linkTree_nil] at hchain

/-- A chain goes on with an operator and an operand. -/
lemma grow (hl : Derives part ts left) (hop : op.precedence = part.precedence)
    (hr : Derives part.operand us right) :
    Derives part (ts ++ .mark (.ofOperator op) :: us) (.binary left op right) := by
  have hp := Part.ne_factor_of_precedence hop
  cases hl with
  | @chain part ts first links _ hfirst hops hlinks =>
    have hgrown : Derives part (ts ++ linkTokens (links ++ [⟨op, us, right⟩]))
        (linkTree first (links ++ [⟨op, us, right⟩])) := by
      refine chain hp hfirst ?_ ?_
      · simpa [or_imp, forall_and] using ⟨hops, hop⟩
      · simpa [or_imp, forall_and] using ⟨hlinks, hr⟩
    rwa [linkTokens_concat, linkTree_concat, ← List.append_assoc] at hgrown
  | parens h => exact absurd rfl hp
  | throw h => exact absurd rfl hp
  | integer fits => exact absurd rfl hp

/-- Every derivation comes about by growing chains, operand by operand from left to right. -/
@[elab_as_elim]
theorem chain_induction {motive : ∀ part ts e, Derives part ts e → Prop}
    (of_operand : ∀ part ts e hp h, motive part.operand ts e h → motive part ts e (h.of_operand hp))
    (grow : ∀ part ts us left op right (hl : Derives part ts left) hop
      (hr : Derives part.operand us right), motive part ts left hl →
        motive part.operand us right hr →
          motive part (ts ++ .mark (.ofOperator op) :: us) (.binary left op right)
            (hl.grow hop hr))
    (parens : ∀ ts e h, motive .expression ts e h →
      motive .factor (.mark .leftParen :: (ts ++ [.mark .rightParen])) e (.parens h))
    (throw : ∀ ts d h, motive .factor ts (.dice d) (.throw h))
    (integer : ∀ n fits, motive .factor [.integer n] (.number (.ofNat n fits)) (.integer fits))
    (h : Derives part ts e) : motive part ts e h := by
  induction h with
  | @chain part ts first links hp hfirst hops hlinks ih ihs =>
    -- A link is added at the right end, so the induction is on the links from there.
    induction links using List.reverseRecOn with
    | nil =>
      simp only [linkTokens_nil, List.append_nil, linkTree_nil]
      exact of_operand part ts first hp hfirst ih
    | append_singleton links link ihl =>
      have hlast : link ∈ links ++ [link] := List.mem_append_right _ List.mem_cons_self
      have hinit : ∀ l ∈ links, l ∈ links ++ [link] := fun l hl => List.mem_append_left _ hl
      simp only [linkTokens_concat, linkTree_concat, ← List.append_assoc]
      exact grow part _ _ _ _ _ _ (hops link hlast) (hlinks link hlast)
        (ihl (fun l hl => hops l (hinit l hl)) (fun l hl => hlinks l (hinit l hl))
          fun l hl => ihs l (hinit l hl))
        (ihs link hlast)
  | parens h ih => exact parens _ _ h ih
  | throw h => exact throw _ _ h
  | integer fits => exact integer _ fits

end Derives

end Grammar

end DiceNotation
