import Mathlib.Data.List.Basic

/-!
# Trees in pre-order

A loop over a stack of trees, in which each entry has what its tree inherits from the ones above it,
visits the trees in the order in which the recursion lists them.
-/

namespace MaddyWeb.Library

inductive Tree (α β : Type)
  | leaf (value : α)
  | branch (value : β) (children : List (Tree α β))

namespace Tree

variable {α β ι σ ε : Type}

/-! ## The recursion -/

section Preorder

variable (inherit : ι → β → ι)

mutual

/-- The tree and those below it, a tree before its children. -/
def preorder : ι → Tree α β → List (Tree α β × ι)
  | above, leaf value => [(leaf value, above)]
  | above, branch value children =>
    (branch value children, above) :: preorderAll (inherit above value) children

def preorderAll : ι → List (Tree α β) → List (Tree α β × ι)
  | _, [] => []
  | above, tree :: trees => preorder above tree ++ preorderAll above trees

end

theorem preorderAll_eq_flatMap (above : ι) (trees : List (Tree α β)) :
    preorderAll inherit above trees = trees.flatMap (preorder inherit above) := by
  induction trees with
  | nil => rfl
  | cons tree trees ih => rw [preorderAll, ih, List.flatMap_cons]

end Preorder

section Map

variable {κ : Type} {inherit : ι → β → ι} {inherit' : κ → β → κ} {f : ι → κ}

mutual

/-- What can be told from what is inherited is inherited too. -/
theorem preorder_map (hf : ∀ above value, f (inherit above value) = inherit' (f above) value)
    (above : ι) : ∀ tree : Tree α β,
    preorder inherit' (f above) tree =
      (preorder inherit above tree).map fun entry => (entry.1, f entry.2)
  | leaf value => rfl
  | branch value children => by
      rw [preorder, preorder, List.map_cons, ← hf, preorderAll_map hf _ children]

theorem preorderAll_map (hf : ∀ above value, f (inherit above value) = inherit' (f above) value)
    (above : ι) : ∀ trees : List (Tree α β),
    preorderAll inherit' (f above) trees =
      (preorderAll inherit above trees).map fun entry => (entry.1, f entry.2)
  | [] => rfl
  | tree :: trees => by
      rw [preorderAll, preorderAll, List.map_append, preorder_map hf above tree,
        preorderAll_map hf above trees]

end

end Map

mutual

def size : Tree α β → Nat
  | leaf _ => 1
  | branch _ children => 1 + sizeAll children

def sizeAll : List (Tree α β) → Nat
  | [] => 0
  | tree :: trees => tree.size + sizeAll trees

end

theorem size_pos (tree : Tree α β) : 0 < tree.size := by
  cases tree with
  | leaf value => exact Nat.one_pos
  | branch value children =>
      rw [size]
      omega

/-! ## The loop -/

/-- `stack.extend(frames)`; the end of the stack is in front. -/
def extend {γ : Type} (stack frames : List γ) : List γ := frames.reverse ++ stack

def stackSize (stack : List (Tree α β × ι)) : Nat := sizeAll (stack.map (·.1))

theorem stackSize_children (inherited : ι) (children : List (Tree α β))
    (stack : List (Tree α β × ι)) :
    stackSize (children.map (·, inherited) ++ stack) = sizeAll children + stackSize stack := by
  unfold stackSize
  induction children with
  | nil => rw [List.map_nil, List.nil_append, sizeAll, Nat.zero_add]
  | cons tree children ih =>
      rw [List.map_cons, List.cons_append, List.map_cons, sizeAll, sizeAll, ih, Nat.add_assoc]

/-- `(child, inherited) for child in reversed(children)` -/
def reversed {γ : Type} (children : List γ) (inherited : ι) : List (γ × ι) :=
  children.reverse.map (·, inherited)

theorem extend_reversed {γ : Type} (stack : List (γ × ι)) (children : List γ) (inherited : ι) :
    extend stack (reversed children inherited) = children.map (·, inherited) ++ stack := by
  rw [extend, reversed, List.map_reverse, List.reverse_reverse]

/-- The loop that visits the tree on top of the stack and pushes its children, the last one
first. -/
def walk (inherit : ι → β → ι) (visit : σ → Tree α β × ι → Except ε σ) :
    List (Tree α β × ι) → σ → Except ε σ
  | [], state => .ok state
  | (leaf value, above) :: stack, state => do
    let state ← visit state (leaf value, above)
    walk inherit visit stack state
  | (branch value children, above) :: stack, state => do
    let state ← visit state (branch value children, above)
    walk inherit visit (extend stack (reversed children (inherit above value))) state
termination_by stack => stackSize stack
decreasing_by
  · exact Nat.lt_add_of_pos_left (size_pos (leaf value))
  · rw [extend_reversed, stackSize_children]
    show _ < (1 + sizeAll children) + stackSize stack
    omega

theorem walk_eq_foldlM (inherit : ι → β → ι) (visit : σ → Tree α β × ι → Except ε σ)
    (stack : List (Tree α β × ι)) (state : σ) :
    walk inherit visit stack state =
      (stack.flatMap fun entry => preorder inherit entry.2 entry.1).foldlM visit state := by
  fun_induction walk inherit visit stack state with
  | case1 state => rfl
  | case2 value above stack state ih =>
      rw [List.flatMap_cons, preorder, List.singleton_append, List.foldlM_cons]
      congr 1
      funext next
      exact ih next
  | case3 value children above stack state ih =>
      rw [List.flatMap_cons, preorder, List.cons_append, List.foldlM_cons]
      congr 1
      funext next
      rw [ih, extend_reversed, List.flatMap_append, List.flatMap_map, preorderAll_eq_flatMap]

/-- The loop visits the trees in pre-order. -/
theorem walk_singleton (inherit : ι → β → ι) (visit : σ → Tree α β × ι → Except ε σ) (above : ι)
    (tree : Tree α β) (state : σ) :
    walk inherit visit [(tree, above)] state =
      (preorder inherit above tree).foldlM visit state := by
  rw [walk_eq_foldlM, List.flatMap_singleton]

end Tree

end MaddyWeb.Library
