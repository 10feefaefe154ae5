import WhileFrontend.Grammar

/-!
# The shape of sentences

What can be said of a derivation without running the parser:

* `mono` — a bound on nesting may be raised
* `first` — the first token already tells what sort of phrase follows
* `noEnd` — the end marker stands nowhere inside

The operators of one level are told apart from those of every other level by their kinds alone,
which is what makes each loop of the parser stop where the grammar ends a chain (`EndsArith`,
`EndsCond`).
-/

namespace WhileFrontend

namespace Kind

/-! ## Kinds that end a chain -/

/-- The kinds with which an arithmetic expression may start. -/
def startsArith : Kind → Bool
  | symbol .lparen => true
  | number => true
  | ident => true
  | _ => false

/-- No arithmetic operator: an arithmetic expression ends before it. -/
def EndsArith (k : Kind) : Prop :=
  k.multiplicative? = none ∧ k.additive? = none

/-- No operator of a condition either: a condition ends before it. -/
def EndsCond (k : Kind) : Prop :=
  k.EndsArith ∧ k.conjunctive? = none ∧ k.disjunctive? = none

theorem multiplicative?_of_additive? {k : Kind} {op : ArithOp} (h : k.additive? = some op) :
    k.multiplicative? = none := by
  unfold additive? at h
  split at h
  · rfl
  · rfl
  · cases h

theorem endsArith_of_relational? {k : Kind} {op : RelOp} (h : k.relational? = some op) :
    k.EndsArith := by
  unfold relational? at h
  split at h
  all_goals first | exact ⟨rfl, rfl⟩ | cases h

theorem endsArith_of_conjunctive? {k : Kind} {op : BoolOp} (h : k.conjunctive? = some op) :
    k.EndsArith := by
  unfold conjunctive? at h
  split at h
  · exact ⟨rfl, rfl⟩
  · cases h

theorem endsArith_of_disjunctive? {k : Kind} {op : BoolOp} (h : k.disjunctive? = some op) :
    k.EndsArith ∧ k.conjunctive? = none := by
  unfold disjunctive? at h
  split at h
  · exact ⟨⟨rfl, rfl⟩, rfl⟩
  · cases h

end Kind

/-! ## The end marker stands in no sentence -/

/-- None of the tokens is an end marker. -/
def NoEnd (ts : List Token) : Prop :=
  ∀ t ∈ ts, t.kind ≠ .eof

namespace NoEnd

@[simp] theorem nil : NoEnd [] :=
  List.forall_mem_nil _

@[simp] theorem cons_iff {t : Token} {ts : List Token} :
    NoEnd (t :: ts) ↔ t.kind ≠ .eof ∧ NoEnd ts :=
  List.forall_mem_cons

@[simp] theorem append_iff {ts us : List Token} : NoEnd (ts ++ us) ↔ NoEnd ts ∧ NoEnd us :=
  List.forall_mem_append

/-- A kind that some operator table knows is not the end. -/
theorem kind_ne {α : Type} {t : Token} {op? : Kind → Option α} {op : α} (hend : op? .eof = none)
    (h : op? t.kind = some op) : t.kind ≠ .eof := by
  intro he
  rw [he, hend] at h
  cases h

end NoEnd

theorem DerivesArith.noEnd {d : Nat} {s : ArithSort} {ts : List Token} {e : Arith}
    (h : DerivesArith d s ts e) : NoEnd ts := by
  induction h with
  | const kind value => simp [kind]
  | var kind value => simp [kind]
  | group openKind inside closeKind ih => simp [openKind, ih, closeKind]
  | operand h ih => exact ih
  | product left kind right ihl ihr => simp [ihl, NoEnd.kind_ne rfl kind, ihr]
  | single h ih => exact ih
  | sum left kind right ihl ihr => simp [ihl, NoEnd.kind_ne rfl kind, ihr]

theorem DerivesComparison.noEnd {d : Nat} {ts : List Token} {c : Cond}
    (h : DerivesComparison d ts c) : NoEnd ts := by
  cases h with
  | compare left kind right => simp [left.noEnd, NoEnd.kind_ne rfl kind, right.noEnd]

theorem DerivesCond.noEnd {d : Nat} {s : CondSort} {ts : List Token} {c : Cond}
    (h : DerivesCond d s ts c) : NoEnd ts := by
  induction h with
  | truth kind => simp [kind]
  | falsity kind => simp [kind]
  | negation kind operand ih => simp [kind, ih]
  | group openKind inside closeKind ih => simp [openKind, ih, closeKind]
  | comparison h kind => exact h.noEnd
  | conjunct h ih => exact ih
  | conjunction left kind right ihl ihr => simp [ihl, NoEnd.kind_ne rfl kind, ihr]
  | single h ih => exact ih
  | disjunction left kind right ihl ihr => simp [ihl, NoEnd.kind_ne rfl kind, ihr]

mutual

theorem DerivesStmt.noEnd {d : Nat} {ts : List Token} {s : Stmt} (h : DerivesStmt d ts s) :
    NoEnd ts := by
  match h with
  | .assign targetKind _ kind expr endKind => simp [targetKind, kind, expr.noEnd, endKind]
  | .skip kind endKind => simp [kind, endKind]
  | .whileDo whileKind cond doKind inside doneKind =>
    simp [whileKind, cond.noEnd, doKind, inside.noEnd, doneKind]
  | .ifThen ifKind cond thenKind thenBranch fiKind =>
    simp [ifKind, cond.noEnd, thenKind, thenBranch.noEnd, fiKind]
  | .ifElse ifKind cond thenKind thenBranch elseKind elseBranch fiKind =>
    simp [ifKind, cond.noEnd, thenKind, thenBranch.noEnd, elseKind, elseBranch.noEnd, fiKind]

theorem DerivesProgram.noEnd {d : Nat} {ts : List Token} {p : Program}
    (h : DerivesProgram d ts p) : NoEnd ts := by
  match h with
  | .last h => exact h.noEnd
  | .seq first rest => simp [first.noEnd, rest.noEnd]

end

/-! ## More nesting allows more -/

/-- A bound that a cost still fits into is that cost on top of a smaller bound. -/
theorem exists_add_of_le {n k d : Nat} (h : n + k ≤ d) : ∃ b, d = b + k ∧ n ≤ b :=
  ⟨d - k, by omega, by omega⟩

theorem DerivesArith.mono {d d' : Nat} {s : ArithSort} {ts : List Token} {e : Arith}
    (h : DerivesArith d s ts e) (hd : d ≤ d') : DerivesArith d' s ts e := by
  induction h generalizing d' with
  | const kind value => exact .const kind value
  | var kind value => exact .var kind value
  | group openKind inside closeKind ih =>
    obtain ⟨b, rfl, hb⟩ := exists_add_of_le hd
    exact .group openKind (ih hb) closeKind
  | operand h ih => exact .operand (ih hd)
  | product left kind right ihl ihr => exact .product (ihl hd) kind (ihr hd)
  | single h ih => exact .single (ih hd)
  | sum left kind right ihl ihr => exact .sum (ihl hd) kind (ihr hd)

theorem DerivesComparison.mono {d d' : Nat} {ts : List Token} {c : Cond}
    (h : DerivesComparison d ts c) (hd : d ≤ d') : DerivesComparison d' ts c := by
  cases h with
  | compare left kind right => exact .compare (left.mono hd) kind (right.mono hd)

theorem DerivesCond.mono {d d' : Nat} {s : CondSort} {ts : List Token} {c : Cond}
    (h : DerivesCond d s ts c) (hd : d ≤ d') : DerivesCond d' s ts c := by
  induction h generalizing d' with
  | truth kind => exact .truth kind
  | falsity kind => exact .falsity kind
  | negation kind operand ih =>
    obtain ⟨b, rfl, hb⟩ := exists_add_of_le hd
    exact .negation kind (ih hb)
  | group openKind inside closeKind ih =>
    obtain ⟨b, rfl, hb⟩ := exists_add_of_le hd
    exact .group openKind (ih hb) closeKind
  | comparison h kind => exact .comparison (h.mono hd) kind
  | conjunct h ih => exact .conjunct (ih hd)
  | conjunction left kind right ihl ihr => exact .conjunction (ihl hd) kind (ihr hd)
  | single h ih => exact .single (ih hd)
  | disjunction left kind right ihl ihr => exact .disjunction (ihl hd) kind (ihr hd)

mutual

theorem DerivesStmt.mono {d d' : Nat} {ts : List Token} {s : Stmt} (h : DerivesStmt d ts s)
    (hd : d ≤ d') : DerivesStmt d' ts s := by
  match h with
  | .assign targetKind value kind expr endKind =>
    exact .assign targetKind value kind (expr.mono hd) endKind
  | .skip kind endKind => exact .skip kind endKind
  | .whileDo whileKind cond doKind inside doneKind =>
    obtain ⟨b, rfl, hb⟩ := exists_add_of_le hd
    exact .whileDo whileKind (cond.mono hb) doKind (inside.mono hb) doneKind
  | .ifThen ifKind cond thenKind thenBranch fiKind =>
    obtain ⟨b, rfl, hb⟩ := exists_add_of_le hd
    exact .ifThen ifKind (cond.mono hb) thenKind (thenBranch.mono hb) fiKind
  | .ifElse ifKind cond thenKind thenBranch elseKind elseBranch fiKind =>
    obtain ⟨b, rfl, hb⟩ := exists_add_of_le hd
    exact .ifElse ifKind (cond.mono hb) thenKind (thenBranch.mono hb) elseKind
      (elseBranch.mono hb) fiKind

theorem DerivesProgram.mono {d d' : Nat} {ts : List Token} {p : Program}
    (h : DerivesProgram d ts p) (hd : d ≤ d') : DerivesProgram d' ts p := by
  match h with
  | .last h => exact .last (h.mono hd)
  | .seq first rest => exact .seq (first.mono hd) (rest.mono hd)

end

/-! ## First tokens -/

theorem DerivesArith.first {d : Nat} {s : ArithSort} {ts : List Token} {e : Arith}
    (h : DerivesArith d s ts e) : ∃ t us, ts = t :: us ∧ t.kind.startsArith = true := by
  induction h with
  | const kind value => exact ⟨_, [], rfl, by rw [kind]; rfl⟩
  | var kind value => exact ⟨_, [], rfl, by rw [kind]; rfl⟩
  | group openKind inside closeKind ih => exact ⟨_, _, rfl, by rw [openKind]; rfl⟩
  | operand h ih => exact ih
  | product left kind right ihl ihr =>
    obtain ⟨t, us, rfl, ht⟩ := ihl
    exact ⟨t, _, rfl, ht⟩
  | single h ih => exact ih
  | sum left kind right ihl ihr =>
    obtain ⟨t, us, rfl, ht⟩ := ihl
    exact ⟨t, _, rfl, ht⟩

theorem DerivesComparison.first {d : Nat} {ts : List Token} {c : Cond}
    (h : DerivesComparison d ts c) : ∃ t us, ts = t :: us ∧ t.kind.startsArith = true := by
  cases h with
  | compare left kind right =>
    obtain ⟨t, us, rfl, ht⟩ := left.first
    exact ⟨t, _, rfl, ht⟩

theorem DerivesStmt.first {d : Nat} {ts : List Token} {s : Stmt} (h : DerivesStmt d ts s) :
    ∃ t us, ts = t :: us ∧ t.kind.startsStmt = true := by
  cases h with
  | assign targetKind => exact ⟨_, _, rfl, by rw [targetKind]; rfl⟩
  | skip kind => exact ⟨_, _, rfl, by rw [kind]; rfl⟩
  | whileDo whileKind => exact ⟨_, _, rfl, by rw [whileKind]; rfl⟩
  | ifThen ifKind => exact ⟨_, _, rfl, by rw [ifKind]; rfl⟩
  | ifElse ifKind => exact ⟨_, _, rfl, by rw [ifKind]; rfl⟩

/-! ## No phrase is empty -/

theorem DerivesCond.length_pos {d : Nat} {s : CondSort} {ts : List Token} {c : Cond}
    (h : DerivesCond d s ts c) : 0 < ts.length := by
  induction h with
  | truth | falsity | negation | group | comparison => exact Nat.succ_pos _
  | conjunct h ih => exact ih
  | single h ih => exact ih
  | conjunction | disjunction =>
    rw [List.length_append, List.length_cons]
    omega

theorem DerivesStmt.length_pos {d : Nat} {ts : List Token} {s : Stmt} (h : DerivesStmt d ts s) :
    0 < ts.length := by
  obtain ⟨t, us, rfl, -⟩ := h.first
  exact Nat.succ_pos _

theorem DerivesProgram.length_pos {d : Nat} {ts : List Token} {p : Program}
    (h : DerivesProgram d ts p) : 0 < ts.length := by
  cases h with
  | last h => exact h.length_pos
  | seq first rest =>
    rw [List.length_append]
    exact Nat.add_pos_left first.length_pos _

end WhileFrontend
