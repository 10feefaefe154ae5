import WhileFrontend.Grammar
import WhileFrontend.Tree.Source

/-!
# How deeply a rendered program is nested

`nesting` counts for each tree the parentheses, `not`s, loops and conditionals around the innermost
part of its text, at the cost that the grammar gives each. Parentheses are counted where the text
has them.

No text of the same tree nests less deeply (`DerivesProgram.nesting_le`): a parenthesis of the
rendering stands where no sort of phrase admits the operator, so every derivation has one there,
and parentheses that the rendering leaves out only add to the nesting.
-/

namespace WhileFrontend

/-! ## Nesting of trees -/

/-- What a parenthesis costs, where there is one. -/
def groupCost (opLevel level : Nat) : Nat :=
  if opLevel < level then 3 else 0

/-- The nesting of an arithmetic expression at a place that admits operators from `level` on. -/
def Arith.nesting (level : Nat) : Arith → Nat
  | const _ => 0
  | var _ => 0
  | binary op l r =>
    max (l.nesting op.level) (r.nesting (op.level + 1)) + groupCost op.level level

/-- The nesting of a condition at a place that admits connectives from `level` on. -/
def Cond.nesting (level : Nat) : Cond → Nat
  | truth _ => 0
  | negation c => c.nesting 3 + 1
  | compare _ l r => max (l.nesting 0) (r.nesting 0)
  | binary op l r =>
    max (l.nesting op.level) (r.nesting (op.level + 1)) + groupCost op.level level

mutual

/-- The nesting of a statement. -/
def Stmt.nesting : Stmt → Nat
  | .assign _ e => e.nesting 0
  | .skip => 0
  | .ifThen c t => max (c.nesting 0) t.nesting + 3
  | .ifElse c t e => max (c.nesting 0) (max t.nesting e.nesting) + 3
  | .whileDo c body => max (c.nesting 0) body.nesting + 3

/-- The nesting of a program. -/
def Program.nesting : Program → Nat
  | .last s => s.nesting
  | .seq s rest => max s.nesting rest.nesting

end

/-! ## Levels -/

theorem ArithOp.level_eq (op : ArithOp) : op.level = 1 ∨ op.level = 2 := by
  cases op <;> decide

theorem groupCost_le (opLevel level : Nat) : groupCost opLevel level ≤ 3 := by
  unfold groupCost
  split <;> omega

theorem groupCost_mono (opLevel : Nat) {m n : Nat} (h : m ≤ n) :
    groupCost opLevel m ≤ groupCost opLevel n := by
  unfold groupCost
  split
  · exact Nat.le_of_eq (if_pos (by omega)).symm
  · exact Nat.zero_le _

theorem groupCost_of_le {opLevel level : Nat} (h : level ≤ opLevel) :
    groupCost opLevel level = 0 :=
  if_neg (by omega)

theorem Arith.nesting_mono (e : Arith) {m n : Nat} (h : m ≤ n) : e.nesting m ≤ e.nesting n := by
  cases e with
  | const v => exact Nat.le_refl _
  | var x => exact Nat.le_refl _
  | binary op l r => exact Nat.add_le_add_left (groupCost_mono op.level h) _

theorem Cond.nesting_mono (c : Cond) {m n : Nat} (h : m ≤ n) : c.nesting m ≤ c.nesting n := by
  cases c with
  | truth b => exact Nat.le_refl _
  | negation c => exact Nat.le_refl _
  | compare op l r => exact Nat.le_refl _
  | binary op l r => exact Nat.add_le_add_left (groupCost_mono op.level h) _

/-- Whatever the place asks for, one parenthesis is enough. -/
theorem Arith.nesting_le_add (e : Arith) (m n : Nat) : e.nesting n ≤ e.nesting m + 3 := by
  cases e with
  | const v => exact Nat.zero_le _
  | var x => exact Nat.zero_le _
  | binary op l r =>
    have hcost := groupCost_le op.level n
    simp only [nesting]
    omega

theorem Cond.nesting_le_add (c : Cond) (m n : Nat) : c.nesting n ≤ c.nesting m + 3 := by
  cases c with
  | truth b => exact Nat.zero_le _
  | negation c => exact Nat.le_add_right _ _
  | compare op l r => exact Nat.le_add_right _ _
  | binary op l r =>
    have hcost := groupCost_le op.level n
    simp only [nesting]
    omega

/-! ## No derivation nests less deeply -/

/-- The level from which on operators make up a sort. -/
def ArithSort.level : ArithSort → Nat
  | sum => 1
  | product => 2
  | operand => 3

/-- The level from which on connectives make up a sort. -/
def CondSort.level : CondSort → Nat
  | disjunction => 1
  | conjunction => 2
  | conjunct => 3

theorem ArithOp.level_of_multiplicative? {k : Kind} {op : ArithOp}
    (h : k.multiplicative? = some op) : op.level = 2 := by
  unfold Kind.multiplicative? at h
  split at h
  all_goals cases h
  all_goals rfl

theorem ArithOp.level_of_additive? {k : Kind} {op : ArithOp} (h : k.additive? = some op) :
    op.level = 1 := by
  unfold Kind.additive? at h
  split at h
  all_goals cases h
  all_goals rfl

theorem BoolOp.level_of_conjunctive? {k : Kind} {op : BoolOp} (h : k.conjunctive? = some op) :
    op.level = 2 := by
  unfold Kind.conjunctive? at h
  split at h
  all_goals cases h
  rfl

theorem BoolOp.level_of_disjunctive? {k : Kind} {op : BoolOp} (h : k.disjunctive? = some op) :
    op.level = 1 := by
  unfold Kind.disjunctive? at h
  split at h
  all_goals cases h
  rfl

/-- An operator where its level is admitted has no parenthesis to add. -/
theorem Arith.nesting_binary_le {op : ArithOp} {l r : Arith} {n d : Nat} (hop : op.level = n)
    (hl : l.nesting n ≤ d) (hr : r.nesting (n + 1) ≤ d) : (binary op l r).nesting n ≤ d := by
  rw [nesting, hop, groupCost_of_le (Nat.le_refl n)]
  omega

theorem Cond.nesting_binary_le {op : BoolOp} {l r : Cond} {n d : Nat} (hop : op.level = n)
    (hl : l.nesting n ≤ d) (hr : r.nesting (n + 1) ≤ d) : (binary op l r).nesting n ≤ d := by
  rw [nesting, hop, groupCost_of_le (Nat.le_refl n)]
  omega

theorem DerivesArith.nesting_le {d : Nat} {s : ArithSort} {ts : List Token} {e : Arith}
    (h : DerivesArith d s ts e) : e.nesting s.level ≤ d := by
  induction h with
  | const kind value => exact Nat.zero_le _
  | var kind value => exact Nat.zero_le _
  | @group d _ _ _ e openKind inside closeKind ih =>
    exact Nat.le_trans (e.nesting_le_add 1 3) (Nat.add_le_add_right ih 3)
  | @operand d _ e h ih => exact Nat.le_trans (e.nesting_mono (by decide)) ih
  | product left kind right ihl ihr =>
    exact Arith.nesting_binary_le (ArithOp.level_of_multiplicative? kind) ihl ihr
  | @single d _ e h ih => exact Nat.le_trans (e.nesting_mono (by decide)) ih
  | sum left kind right ihl ihr =>
    exact Arith.nesting_binary_le (ArithOp.level_of_additive? kind) ihl ihr

/-- A whole expression has no parentheses around it. -/
theorem DerivesArith.nesting_zero_le {d : Nat} {ts : List Token} {e : Arith}
    (h : DerivesArith d .sum ts e) : e.nesting 0 ≤ d :=
  Nat.le_trans (e.nesting_mono (Nat.zero_le 1)) h.nesting_le

theorem DerivesComparison.nesting_le {d : Nat} {ts : List Token} {c : Cond}
    (h : DerivesComparison d ts c) (level : Nat) : c.nesting level ≤ d := by
  cases h with
  | compare left kind right => exact Nat.max_le.mpr ⟨left.nesting_zero_le, right.nesting_zero_le⟩

theorem DerivesCond.nesting_le {d : Nat} {s : CondSort} {ts : List Token} {c : Cond}
    (h : DerivesCond d s ts c) : c.nesting s.level ≤ d := by
  induction h with
  | truth kind => exact Nat.zero_le _
  | falsity kind => exact Nat.zero_le _
  | negation kind operand ih => exact Nat.add_le_add_right ih 1
  | @group d _ _ _ c openKind inside closeKind ih =>
    exact Nat.le_trans (c.nesting_le_add 1 3) (Nat.add_le_add_right ih 3)
  | comparison h kind => exact h.nesting_le _
  | @conjunct d _ c h ih => exact Nat.le_trans (c.nesting_mono (by decide)) ih
  | conjunction left kind right ihl ihr =>
    exact Cond.nesting_binary_le (BoolOp.level_of_conjunctive? kind) ihl ihr
  | @single d _ c h ih => exact Nat.le_trans (c.nesting_mono (by decide)) ih
  | disjunction left kind right ihl ihr =>
    exact Cond.nesting_binary_le (BoolOp.level_of_disjunctive? kind) ihl ihr

/-- A whole condition has no parentheses around it. -/
theorem DerivesCond.nesting_zero_le {d : Nat} {ts : List Token} {c : Cond}
    (h : DerivesCond d .disjunction ts c) : c.nesting 0 ≤ d :=
  Nat.le_trans (c.nesting_mono (Nat.zero_le 1)) h.nesting_le

mutual

theorem DerivesStmt.nesting_le {d : Nat} {ts : List Token} {s : Stmt} (h : DerivesStmt d ts s) :
    s.nesting ≤ d := by
  match h with
  | .assign _ _ _ expr _ => exact expr.nesting_zero_le
  | .skip _ _ => exact Nat.zero_le _
  | .whileDo _ cond _ inside _ =>
    exact Nat.add_le_add_right (Nat.max_le.mpr ⟨cond.nesting_zero_le, inside.nesting_le⟩) 3
  | .ifThen _ cond _ thenBranch _ =>
    exact Nat.add_le_add_right (Nat.max_le.mpr ⟨cond.nesting_zero_le, thenBranch.nesting_le⟩) 3
  | .ifElse _ cond _ thenBranch _ elseBranch _ =>
    have hbranches := Nat.max_le.mpr ⟨thenBranch.nesting_le, elseBranch.nesting_le⟩
    exact Nat.add_le_add_right (Nat.max_le.mpr ⟨cond.nesting_zero_le, hbranches⟩) 3

/-- No text of a program nests less deeply than its rendering. -/
theorem DerivesProgram.nesting_le {d : Nat} {ts : List Token} {p : Program}
    (h : DerivesProgram d ts p) : p.nesting ≤ d := by
  match h with
  | .last h => exact h.nesting_le
  | .seq first rest => exact Nat.max_le.mpr ⟨first.nesting_le, rest.nesting_le⟩

end

end WhileFrontend
