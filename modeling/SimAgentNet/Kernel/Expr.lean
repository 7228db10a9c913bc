import SimAgentNet.Kernel.Datum

/-! # Kernel expressions

The expression type of the SIM kernel. The kernel's quote modes are a type parameter. -/

namespace SimAgentNet

inductive Expr (Mode : Type) where
  | nil
  | bool (v : Bool)
  | number (v : NumberLiteral)
  | symbol (v : Symbol)
  | «local» (v : Symbol)
  | string (v : String)
  | bytes (v : List UInt8)
  | list (vs : List (Expr Mode))
  | vector (vs : List (Expr Mode))
  | map (vs : List (Expr Mode × Expr Mode))
  | set (vs : List (Expr Mode))
  | call (operator : Expr Mode) (args : List (Expr Mode))
  | infixOp (operator : Symbol) (left right : Expr Mode)
  | prefixOp (operator : Symbol) (arg : Expr Mode)
  | postfixOp (operator : Symbol) (arg : Expr Mode)
  | block (vs : List (Expr Mode))
  | quote (mode : Mode) (expr : Expr Mode)
  | annotated (expr : Expr Mode) (annotations : List (Symbol × Expr Mode))
  | extension (tag : Symbol) (payload : Expr Mode)

namespace Expr
variable {Mode : Type}

/-- A map entry under a bare symbol. -/
def entry (name : String) (value : Expr Mode) : Expr Mode × Expr Mode := (.symbol (.new name), value)

section
variable [DecidableEq Mode]

mutual
/-- Structural equality test. -/
def beq : Expr Mode → Expr Mode → Bool
  | .nil, .nil => true
  | .bool a, .bool b => a == b
  | .number a, .number b => a == b
  | .symbol a, .symbol b => a == b
  | .local a, .local b => a == b
  | .string a, .string b => a == b
  | .bytes a, .bytes b => a == b
  | .list a, .list b => beqList a b
  | .vector a, .vector b => beqList a b
  | .map a, .map b => beqPairs a b
  | .set a, .set b => beqList a b
  | .call f a, .call g b => beq f g && beqList a b
  | .infixOp o l r, .infixOp o' l' r' => o == o' && beq l l' && beq r r'
  | .prefixOp o a, .prefixOp o' b => o == o' && beq a b
  | .postfixOp o a, .postfixOp o' b => o == o' && beq a b
  | .block a, .block b => beqList a b
  | .quote m a, .quote m' b => m == m' && beq a b
  | .annotated a as, .annotated b bs => beq a b && beqFields as bs
  | .extension t a, .extension t' b => t == t' && beq a b
  | _, _ => false
termination_by structural a => a

def beqList : List (Expr Mode) → List (Expr Mode) → Bool
  | [], [] => true
  | a :: as, b :: bs => beq a b && beqList as bs
  | _, _ => false
termination_by structural a => a

def beqPairs : List (Expr Mode × Expr Mode) → List (Expr Mode × Expr Mode) → Bool
  | [], [] => true
  | (a, a') :: as, (b, b') :: bs => beq a b && beq a' b' && beqPairs as bs
  | _, _ => false
termination_by structural a => a

def beqFields : List (Symbol × Expr Mode) → List (Symbol × Expr Mode) → Bool
  | [], [] => true
  | (n, a) :: as, (m, b) :: bs => n == m && beq a b && beqFields as bs
  | _, _ => false
termination_by structural a => a
end

mutual
theorem beq_iff : ∀ a b : Expr Mode, beq a b = true ↔ a = b
  | .nil, b => by cases b <;> simp [beq]
  | .bool _, b => by cases b <;> simp [beq]
  | .number _, b => by cases b <;> simp [beq]
  | .symbol _, b => by cases b <;> simp [beq]
  | .local _, b => by cases b <;> simp [beq]
  | .string _, b => by cases b <;> simp [beq]
  | .bytes _, b => by cases b <;> simp [beq]
  | .list a, b => by cases b <;> simp [beq, beqList_iff a]
  | .vector a, b => by cases b <;> simp [beq, beqList_iff a]
  | .map a, b => by cases b <;> simp [beq, beqPairs_iff a]
  | .set a, b => by cases b <;> simp [beq, beqList_iff a]
  | .call f a, b => by cases b <;> simp [beq, beq_iff f, beqList_iff a]
  | .infixOp _ l r, b => by cases b <;> simp [beq, beq_iff l, beq_iff r, and_assoc]
  | .prefixOp _ a, b => by cases b <;> simp [beq, beq_iff a]
  | .postfixOp _ a, b => by cases b <;> simp [beq, beq_iff a]
  | .block a, b => by cases b <;> simp [beq, beqList_iff a]
  | .quote _ a, b => by cases b <;> simp [beq, beq_iff a]
  | .annotated a as, b => by cases b <;> simp [beq, beq_iff a, beqFields_iff as]
  | .extension _ a, b => by cases b <;> simp [beq, beq_iff a]
termination_by structural a => a

theorem beqList_iff : ∀ a b : List (Expr Mode), beqList a b = true ↔ a = b
  | [], b => by cases b <;> simp [beqList]
  | a :: as, b => by cases b <;> simp [beqList, beq_iff a, beqList_iff as]
termination_by structural a => a

theorem beqPairs_iff : ∀ a b : List (Expr Mode × Expr Mode), beqPairs a b = true ↔ a = b
  | [], b => by cases b <;> simp [beqPairs]
  | (a, a') :: as, b => by
    cases b with
    | nil => simp [beqPairs]
    | cons e _ =>
      obtain ⟨_, _⟩ := e
      simp [beqPairs, beq_iff a, beq_iff a', beqPairs_iff as]
termination_by structural a => a

theorem beqFields_iff : ∀ a b : List (Symbol × Expr Mode), beqFields a b = true ↔ a = b
  | [], b => by cases b <;> simp [beqFields]
  | (_, a) :: as, b => by
    cases b with
    | nil => simp [beqFields]
    | cons e _ => obtain ⟨_, _⟩ := e; simp [beqFields, beq_iff a, beqFields_iff as]
termination_by structural a => a
end

instance : DecidableEq (Expr Mode) := fun a b => decidable_of_iff _ (beq_iff a b)

end

/-- Two expressions are the same up to the order of map entries, set elements and annotations,
at every depth. -/
inductive Same : Expr Mode → Expr Mode → Prop
  | nil : Same .nil .nil
  | bool : Same (.bool v) (.bool v)
  | number : Same (.number v) (.number v)
  | symbol : Same (.symbol v) (.symbol v)
  | «local» : Same (.local v) (.local v)
  | string : Same (.string v) (.string v)
  | bytes : Same (.bytes v) (.bytes v)
  | list : List.Forall₂ Same as bs → Same (.list as) (.list bs)
  | vector : List.Forall₂ Same as bs → Same (.vector as) (.vector bs)
  | map {as as' bs bs' : List (Expr Mode × Expr Mode)} : as'.Perm as → bs'.Perm bs →
      List.Forall₂ Same (as'.map (·.1)) (bs'.map (·.1)) →
      List.Forall₂ Same (as'.map (·.2)) (bs'.map (·.2)) → Same (.map as) (.map bs)
  | set {as as' bs bs' : List (Expr Mode)} : as'.Perm as → bs'.Perm bs → List.Forall₂ Same as' bs' →
      Same (.set as) (.set bs)
  | call : Same f g → List.Forall₂ Same as bs → Same (.call f as) (.call g bs)
  | infixOp : Same l l' → Same r r' → Same (.infixOp o l r) (.infixOp o l' r')
  | prefixOp : Same a b → Same (.prefixOp o a) (.prefixOp o b)
  | postfixOp : Same a b → Same (.postfixOp o a) (.postfixOp o b)
  | block : List.Forall₂ Same as bs → Same (.block as) (.block bs)
  | quote : Same a b → Same (.quote m a) (.quote m b)
  | annotated {as as' bs bs' : List (Symbol × Expr Mode)} : Same a b → as'.Perm as →
      bs'.Perm bs → as'.map (·.1) = bs'.map (·.1) →
      List.Forall₂ Same (as'.map (·.2)) (bs'.map (·.2)) → Same (.annotated a as) (.annotated b bs)
  | extension : Same a b → Same (.extension t a) (.extension t b)

end Expr

end SimAgentNet
