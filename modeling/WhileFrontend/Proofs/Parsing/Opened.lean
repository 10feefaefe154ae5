import WhileFrontend.Token.Basic

/-!
# What is open around a token

Parentheses, loops and conditionals are open until they are closed, and a `not` is open until its
operand has been read. What is open at a position of a token list follows from the tokens before it
alone, without parsing them: it is a stack, on which every token has its effect (`Opened.behind`).
An operand of a `not` has no end of its own. It is over at the latest where what contains the `not`
goes on: at a connective, at a closing parenthesis, at `do` and at `then` (`Opened.settle`).

The cost of a position is three for every group that is open around it and one for every `not`
(`costAt`).
-/

namespace WhileFrontend

/-- What can be open around a token. -/
inductive Opened where
  /-- A parenthesis, a loop or a conditional. -/
  | group
  /-- A `not` whose operand is still being read. -/
  | negation
  deriving DecidableEq, Repr

namespace Opened

/-- What is open where the operands of `not` are over, innermost first. -/
def settle : List Opened → List Opened
  | negation :: s => settle s
  | s => s

/-- What is open behind a token of the given kind, innermost first. -/
def behind (s : List Opened) : Kind → List Opened
  | .symbol .lparen => group :: s
  | .keyword .whileKw => group :: s
  | .keyword .ifKw => group :: s
  | .keyword .notKw => negation :: s
  | .keyword .andKw => settle s
  | .keyword .orKw => settle s
  | .keyword .doKw => settle s
  | .keyword .thenKw => settle s
  | .symbol .rparen => (settle s).tail
  | .keyword .doneKw => (settle s).tail
  | .keyword .fiKw => (settle s).tail
  | _ => s

/-- What nesting costs where this is open. -/
def cost (s : List Opened) : Nat :=
  3 * s.count group + s.count negation

@[simp] theorem cost_nil : cost [] = 0 := rfl

@[simp] theorem cost_group (s : List Opened) : cost (group :: s) = cost s + 3 := by
  simp only [cost, List.count_cons_self, List.count_cons_of_ne (show group ≠ negation by decide)]
  omega

@[simp] theorem cost_negation (s : List Opened) : cost (negation :: s) = cost s + 1 := by
  simp only [cost, List.count_cons_self, List.count_cons_of_ne (show negation ≠ group by decide)]
  omega

theorem cost_settle_le (s : List Opened) : cost (settle s) ≤ cost s := by
  fun_induction settle s with
  | case1 s ih =>
    rw [cost_negation]
    omega
  | case2 s _ => exact Nat.le_refl _

theorem cost_tail_le (s : List Opened) : cost s.tail ≤ cost s := by
  cases s with
  | nil => exact Nat.le_refl _
  | cons o s => cases o <;> simp

/-- No token opens more than one group. -/
theorem cost_behind_le (s : List Opened) (k : Kind) : cost (behind s k) ≤ cost s + 3 := by
  have hsettle := cost_settle_le s
  have htail := cost_tail_le (settle s)
  unfold behind
  split <;> simp <;> omega

theorem settle_replicate_append (m : Nat) (s : List Opened) :
    settle (List.replicate m negation ++ s) = settle s := by
  induction m with
  | zero => rfl
  | succ m ih => exact ih

end Opened

/-- What is open behind tokens, where `s` is open before them. -/
def opened (s : List Opened) (ts : List Token) : List Opened :=
  ts.foldl (fun s t => Opened.behind s t.kind) s

@[simp] theorem opened_nil (s : List Opened) : opened s [] = s := rfl

@[simp] theorem opened_cons (s : List Opened) (t : Token) (ts : List Token) :
    opened s (t :: ts) = opened (Opened.behind s t.kind) ts := rfl

/-- What is open further on depends on the tokens in between. -/
theorem opened_take_add (s : List Opened) (ts : List Token) (m n : Nat) :
    opened s (ts.take (m + n)) = opened (opened s (ts.take m)) ((ts.drop m).take n) := by
  rw [opened, List.take_add, List.foldl_append]
  rfl

/-- What nesting costs at a position of a token list. -/
def costAt (ts : List Token) (i : Nat) : Nat :=
  Opened.cost (opened [] (ts.take i))

theorem costAt_succ_le (ts : List Token) (i : Nat) : costAt ts (i + 1) ≤ costAt ts i + 3 := by
  rw [costAt, opened_take_add, costAt]
  cases ts.drop i with
  | nil => exact Nat.le_add_right _ 3
  | cons t rest => exact Opened.cost_behind_le _ t.kind

/-- Every token adds three to the cost at most. -/
theorem costAt_add_le (ts : List Token) (i n : Nat) : costAt ts (i + n) ≤ costAt ts i + 3 * n := by
  induction n with
  | zero => exact Nat.le_refl _
  | succ n ih =>
    have hstep := costAt_succ_le ts (i + n)
    rw [← Nat.add_assoc]
    omega

/-- The cost of a position depends on the tokens before it. -/
theorem costAt_take (ts : List Token) (n i : Nat) : costAt (ts.take n) i = costAt ts (min i n) := by
  rw [costAt, costAt, List.take_take]

/-- No position costs more than three for each token. -/
theorem costAt_le (ts : List Token) (i : Nat) : costAt ts i ≤ 3 * ts.length := by
  have hcost : costAt ts i = costAt ts (min i ts.length) := by
    rw [← costAt_take, List.take_length]
  have hstart := costAt_add_le ts 0 (min i ts.length)
  rw [Nat.zero_add] at hstart
  have hzero : costAt ts 0 = 0 := rfl
  omega

end WhileFrontend
