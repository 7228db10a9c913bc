import Mathlib

/-! # Bracketed traces

A forest of labelled branches with notes between them, and the trace that visiting it in order
leaves: a token when a branch is opened, numbered in the order of opening, and one when it is
closed. -/

namespace Brackets
variable {ν : Type u} {l : Type v}

inductive Node (ν : Type u) (l : Type v) where
  | note (e : ν)
  | branch (label : l) (inner : List (Node ν l))

inductive Token (ν : Type u) (l : Type v) where
  | note (e : ν)
  | opens (n : Nat) (label : l)
  | closes (n : Nat) (label : l)

mutual
/-- The number of branches. -/
def Node.size : Node ν l → Nat
  | .note _ => 0
  | .branch _ inner => sizes inner + 1

def sizes : List (Node ν l) → Nat
  | [] => 0
  | node :: nodes => node.size + sizes nodes
end

mutual
/-- The trace of a node whose first branch has the number `n`. -/
def Node.tokens (n : Nat) : Node ν l → List (Token ν l)
  | .note e => [.note e]
  | .branch label inner => .opens n label :: (tokens (n + 1) inner ++ [.closes n label])

def tokens (n : Nat) : List (Node ν l) → List (Token ν l)
  | [] => []
  | node :: nodes => node.tokens n ++ tokens (n + node.size) nodes
end

def Token.opened : Token ν l → Option Nat
  | .opens n _ => some n
  | _ => none

def Token.closed : Token ν l → Option Nat
  | .closes n _ => some n
  | _ => none

theorem sizes_append (nodes nodes' : List (Node ν l)) :
    sizes (nodes ++ nodes') = sizes nodes + sizes nodes' := by
  induction nodes with
  | nil => simp [sizes]
  | cons node nodes ih => simp [sizes, ih, Nat.add_assoc]

theorem tokens_append (n : Nat) (nodes nodes' : List (Node ν l)) :
    tokens n (nodes ++ nodes') = tokens n nodes ++ tokens (n + sizes nodes) nodes' := by
  induction nodes generalizing n with
  | nil => simp [tokens, sizes]
  | cons node nodes ih => simp [tokens, sizes, ih, Nat.add_assoc]

/-- The branches of a forest at any depth. -/
inductive Within (label : l) (inner : List (Node ν l)) : List (Node ν l) → Prop
  | here (h : .branch label inner ∈ nodes) : Within label inner nodes
  | deeper (h : .branch label' inner' ∈ nodes) (h' : Within label inner inner') :
    Within label inner nodes

theorem Within.cons {label : l} {inner nodes : List (Node ν l)} (node : Node ν l)
    (h : Within label inner nodes) :
    Within label inner (node :: nodes) := by
  cases h with
  | here h => exact .here (List.mem_cons_of_mem _ h)
  | deeper h h' => exact .deeper (List.mem_cons_of_mem _ h) h'

end Brackets
