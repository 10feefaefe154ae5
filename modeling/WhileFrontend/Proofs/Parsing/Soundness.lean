import WhileFrontend.Proofs.Grammar.Shape
import WhileFrontend.Proofs.Parsing.Choice

/-!
# What is parsed is derived

Every phrase of the parser, run within a budget, reads only what the grammar derives within the same
bound on nesting (`sound_arith`, `sound_cond`, `sound_program`). The phrases are taken in the order
of their definition; each is sound for whatever phrases are nested inside it, and the recursion is
closed by induction on the budget.
-/

namespace WhileFrontend.Phrase

/-- A nested phrase reads what its phrase reads with the budget that is left. -/
theorem sound_nested {α : Type} {cost d : Nat} {p : Nat → Phrase α}
    {R : Nat → List Token → α → Prop} (h : ∀ b, b + cost = d → (p b).Sound (R b)) :
    (nested cost p d).Sound fun us a => ∃ b, d = b + cost ∧ R b us a := by
  rw [nested]
  split
  · next hd =>
    have hb : d - cost + cost = d := Nat.sub_add_cancel hd
    exact (h (d - cost) hb).mono fun us a hR => ⟨d - cost, hb.symm, hR⟩
  · exact sound_fail _

/-! ## Arithmetic expressions -/

theorem sound_factorOf {inner : Phrase Arith} {d : Nat}
    (hinner : inner.Sound fun us e => ∃ b, d = b + 3 ∧ DerivesArith b .sum us e) :
    (factorOf inner).Sound (DerivesArith d .operand) := by
  intro ts e n h
  cases ts with
  | nil => cases h
  | cons t rest =>
    rw [factorOf_cons] at h
    split at h
    · next hkind =>
      obtain ⟨m, hm, rfl⟩ := Outcome.after_eq_ok h
      obtain ⟨us, rest, e, k, rfl, ⟨b, rfl, hus⟩, hk, rfl⟩ := hinner.step hm
      obtain ⟨_, rest, t', i, rfl, ⟨rfl, hclose⟩, hi, rfl⟩ := (sound_expect (by decide)).step hk
      obtain ⟨rfl, rfl⟩ := Outcome.ok.inj hi
      exact ⟨t :: (us ++ [t']), rest, by simp, by simp; omega, .group hkind hus hclose⟩
    · next hkind =>
      split at h
      · next k hvalue =>
        obtain ⟨rfl, rfl⟩ := Outcome.ok.inj h
        exact ⟨[t], rest, rfl, rfl, .const hkind hvalue⟩
      · cases h
    · next hkind =>
      split at h
      · next x hvalue =>
        obtain ⟨rfl, rfl⟩ := Outcome.ok.inj h
        exact ⟨[t], rest, rfl, rfl, .var hkind hvalue⟩
      · cases h
    · cases h

theorem sound_summandOf {inner : Phrase Arith} {d : Nat}
    (hinner : inner.Sound fun us e => ∃ b, d = b + 3 ∧ DerivesArith b .sum us e) :
    (summandOf inner).Sound (DerivesArith d .product) :=
  sound_chain (sound_factorOf hinner) (fun _ _ => .operand)
    fun _ _ _ _ _ _ left kind right => .product left kind right

theorem sound_arithOf {inner : Phrase Arith} {d : Nat}
    (hinner : inner.Sound fun us e => ∃ b, d = b + 3 ∧ DerivesArith b .sum us e) :
    (arithOf inner).Sound (DerivesArith d .sum) :=
  sound_chain (sound_summandOf hinner) (fun _ _ => .single)
    fun _ _ _ _ _ _ left kind right => .sum left kind right

/-- An arithmetic expression that is read is derived. -/
theorem sound_arith (d : Nat) : (arith d).Sound (DerivesArith d .sum) := by
  induction d using Nat.strongRecOn with
  | _ d ih =>
    rw [arith_eq]
    exact sound_arithOf (sound_nested fun b hb => ih b (by omega))

/-! ## Conditions -/

theorem sound_comparisonOf {arith : Phrase Arith} {d : Nat}
    (harith : arith.Sound (DerivesArith d .sum)) :
    (comparisonOf arith).Sound (DerivesComparison d) := by
  intro ts c n h
  obtain ⟨us, rest, l, m, rfl, hl, hm, rfl⟩ := harith.step h
  rw [peek_bind] at hm
  cases rest with
  | nil => cases hm
  | cons t rest =>
    rw [List.headD_cons] at hm
    cases hop : t.kind.relational? with
    | none =>
      rw [hop] at hm
      cases hm
    | some op =>
      rw [hop] at hm
      obtain ⟨k, hk, rfl⟩ := Outcome.after_eq_ok hm
      obtain ⟨vs, rest, r, i, rfl, hr, hi, rfl⟩ := harith.step hk
      obtain ⟨rfl, rfl⟩ := Outcome.ok.inj hi
      exact ⟨us ++ t :: vs, rest, by simp, by simp; omega, .compare hl hop hr⟩

theorem sound_conjunctOf {arith : Phrase Arith} {inner operand : Phrase Cond} {d : Nat}
    (harith : arith.Sound (DerivesArith d .sum))
    (hinner : inner.Sound fun us c => ∃ b, d = b + 3 ∧ DerivesCond b .disjunction us c)
    (hoperand : operand.Sound fun us c => ∃ b, d = b + 1 ∧ DerivesCond b .conjunct us c) :
    (conjunctOf arith inner operand).Sound (DerivesCond d .conjunct) := by
  intro ts c n h
  cases ts with
  | nil =>
    -- with no token left a comparison is tried, which needs one
    rw [conjunctOf_nil] at h
    obtain ⟨us, rest, hts, -, hus⟩ := sound_comparisonOf harith _ _ _ h
    obtain ⟨t, us, rfl, -⟩ := hus.first
    cases hts
  | cons t rest =>
    rw [conjunctOf_cons] at h
    split at h
    · next hkind =>
      obtain ⟨m, hm, rfl⟩ := Outcome.after_eq_ok h
      obtain ⟨us, rest, c, k, rfl, ⟨b, rfl, hus⟩, hk, rfl⟩ := hinner.step hm
      obtain ⟨_, rest, t', i, rfl, ⟨rfl, hclose⟩, hi, rfl⟩ := (sound_expect (by decide)).step hk
      obtain ⟨rfl, rfl⟩ := Outcome.ok.inj hi
      exact ⟨t :: (us ++ [t']), rest, by simp, by simp; omega, .group hkind hus hclose⟩
    · next hkind =>
      obtain ⟨m, hm, rfl⟩ := Outcome.after_eq_ok h
      obtain ⟨us, rest, c, k, rfl, ⟨b, rfl, hus⟩, hk, rfl⟩ := hoperand.step hm
      obtain ⟨rfl, rfl⟩ := Outcome.ok.inj hk
      exact ⟨t :: us, rest, rfl, by simp; omega, .negation hkind hus⟩
    · next hkind =>
      obtain ⟨rfl, rfl⟩ := Outcome.ok.inj h
      exact ⟨[t], rest, rfl, rfl, .truth hkind⟩
    · next hkind =>
      obtain ⟨rfl, rfl⟩ := Outcome.ok.inj h
      exact ⟨[t], rest, rfl, rfl, .falsity hkind⟩
    · next hparen _ _ _ =>
      obtain ⟨us, rest', hts, hlen, hus⟩ := sound_comparisonOf harith _ _ _ h
      -- what a comparison reads is not empty, so it starts with the token that was looked at
      obtain ⟨t', us, rfl, -⟩ := hus.first
      obtain ⟨rfl, rfl⟩ := List.cons.inj hts
      exact ⟨t :: us, rest', rfl, hlen, .comparison hus hparen⟩

theorem sound_disjunctOf {conjunct : Phrase Cond} {d : Nat}
    (h : conjunct.Sound (DerivesCond d .conjunct)) :
    (disjunctOf conjunct).Sound (DerivesCond d .conjunction) :=
  sound_chain h (fun _ _ => .conjunct)
    fun _ _ _ _ _ _ left kind right => .conjunction left kind right

theorem sound_condOf {conjunct : Phrase Cond} {d : Nat}
    (h : conjunct.Sound (DerivesCond d .conjunct)) :
    (condOf conjunct).Sound (DerivesCond d .disjunction) :=
  sound_chain (sound_disjunctOf h) (fun _ _ => .single)
    fun _ _ _ _ _ _ left kind right => .disjunction left kind right

theorem sound_conjunct (d : Nat) : (conjunct d).Sound (DerivesCond d .conjunct) := by
  induction d using Nat.strongRecOn with
  | _ d ih =>
    rw [conjunct_eq]
    exact sound_conjunctOf (sound_arith d)
      (sound_nested fun b hb => sound_condOf (ih b (by omega)))
      (sound_nested fun b hb => ih b (by omega))

/-- A condition that is read is derived. -/
theorem sound_cond (d : Nat) : (cond d).Sound (DerivesCond d .disjunction) :=
  sound_condOf (sound_conjunct d)

/-! ## Statements -/

theorem sound_whileOf {cond : Phrase Cond} {program : Phrase Program} {d : Nat}
    (hcond : cond.Sound fun us c => ∃ b, d = b + 3 ∧ DerivesCond b .disjunction us c)
    (hprogram : program.Sound fun us p => ∃ b, d = b + 3 ∧ DerivesProgram b us p) :
    (whileOf cond program).Sound (DerivesStmt d) := by
  intro ts s n h
  obtain ⟨_, rest, t₁, _, rfl, ⟨rfl, hwhile⟩, h₁, rfl⟩ := (sound_expect (by decide)).step h
  obtain ⟨us, rest, c, _, rfl, ⟨b, rfl, hc⟩, h₂, rfl⟩ := hcond.step h₁
  obtain ⟨_, rest, t₂, _, rfl, ⟨rfl, hdo⟩, h₃, rfl⟩ := (sound_expect (by decide)).step h₂
  obtain ⟨vs, rest, p, _, rfl, ⟨b', hb, hp⟩, h₄, rfl⟩ := hprogram.step h₃
  obtain ⟨_, rest, t₃, _, rfl, ⟨rfl, hdone⟩, h₅, rfl⟩ := (sound_expect (by decide)).step h₄
  obtain ⟨rfl, rfl⟩ := Outcome.ok.inj h₅
  -- the condition and the body have the same budget left
  obtain rfl : b = b' := by omega
  exact ⟨t₁ :: (us ++ t₂ :: (vs ++ [t₃])), rest, by simp, by simp; omega,
    .whileDo hwhile hc hdo hp hdone⟩

theorem sound_ifOf {cond : Phrase Cond} {program : Phrase Program} {d : Nat}
    (hcond : cond.Sound fun us c => ∃ b, d = b + 3 ∧ DerivesCond b .disjunction us c)
    (hprogram : program.Sound fun us p => ∃ b, d = b + 3 ∧ DerivesProgram b us p) :
    (ifOf cond program).Sound (DerivesStmt d) := by
  intro ts s n h
  obtain ⟨_, rest, t₁, _, rfl, ⟨rfl, hif⟩, h₁, rfl⟩ := (sound_expect (by decide)).step h
  obtain ⟨us, rest, c, _, rfl, ⟨b, rfl, hc⟩, h₂, rfl⟩ := hcond.step h₁
  obtain ⟨_, rest, t₂, _, rfl, ⟨rfl, hthen⟩, h₃, rfl⟩ := (sound_expect (by decide)).step h₂
  obtain ⟨vs, rest, p, _, rfl, ⟨b', hb, hp⟩, h₄, rfl⟩ := hprogram.step h₃
  obtain rfl : b = b' := by omega
  rw [peek_bind] at h₄
  split at h₄
  · next helse =>
    cases rest with
    | nil => cases helse
    | cons t₃ rest =>
      obtain ⟨_, h₅, rfl⟩ := Outcome.after_eq_ok h₄
      obtain ⟨ws, rest, q, _, rfl, ⟨b', hb, hq⟩, h₆, rfl⟩ := hprogram.step h₅
      obtain ⟨_, rest, t₄, _, rfl, ⟨rfl, hfi⟩, h₇, rfl⟩ := (sound_expect (by decide)).step h₆
      obtain ⟨rfl, rfl⟩ := Outcome.ok.inj h₇
      obtain rfl : b = b' := by omega
      exact ⟨t₁ :: (us ++ t₂ :: (vs ++ t₃ :: (ws ++ [t₄]))), rest, by simp, by simp; omega,
        .ifElse hif hc hthen hp helse hq hfi⟩
  · obtain ⟨_, rest, t₃, _, rfl, ⟨rfl, hfi⟩, h₅, rfl⟩ := (sound_expect (by decide)).step h₄
    obtain ⟨rfl, rfl⟩ := Outcome.ok.inj h₅
    exact ⟨t₁ :: (us ++ t₂ :: (vs ++ [t₃])), rest, by simp, by simp; omega,
      .ifThen hif hc hthen hp hfi⟩

theorem sound_skip (d : Nat) : skip.Sound (DerivesStmt d) := by
  intro ts s n h
  obtain ⟨_, rest, t₁, _, rfl, ⟨rfl, hskip⟩, h₁, rfl⟩ := (sound_expect (by decide)).step h
  obtain ⟨_, rest, t₂, _, rfl, ⟨rfl, hsemi⟩, h₂, rfl⟩ := (sound_expect (by decide)).step h₁
  obtain ⟨rfl, rfl⟩ := Outcome.ok.inj h₂
  exact ⟨[t₁, t₂], rest, rfl, rfl, .skip hskip hsemi⟩

theorem sound_assignOf {arith : Phrase Arith} {d : Nat}
    (harith : arith.Sound (DerivesArith d .sum)) : (assignOf arith).Sound (DerivesStmt d) := by
  intro ts s n h
  obtain ⟨_, rest, t₁, _, rfl, ⟨rfl, hident⟩, h₁, rfl⟩ := (sound_expect (by decide)).step h
  cases hx : t₁.text? with
  | none =>
    rw [hx] at h₁
    cases h₁
  | some x =>
    rw [hx] at h₁
    obtain ⟨_, rest, t₂, _, rfl, ⟨rfl, hassign⟩, h₂, rfl⟩ := (sound_expect (by decide)).step h₁
    obtain ⟨us, rest, e, _, rfl, he, h₃, rfl⟩ := harith.step h₂
    obtain ⟨_, rest, t₃, _, rfl, ⟨rfl, hsemi⟩, h₄, rfl⟩ := (sound_expect (by decide)).step h₃
    obtain ⟨rfl, rfl⟩ := Outcome.ok.inj h₄
    exact ⟨t₁ :: t₂ :: (us ++ [t₃]), rest, by simp, by simp; omega,
      .assign hident hx hassign he hsemi⟩

theorem sound_statementOf {arith : Phrase Arith} {cond : Phrase Cond} {program : Phrase Program}
    {d : Nat} (harith : arith.Sound (DerivesArith d .sum))
    (hcond : cond.Sound fun us c => ∃ b, d = b + 3 ∧ DerivesCond b .disjunction us c)
    (hprogram : program.Sound fun us p => ∃ b, d = b + 3 ∧ DerivesProgram b us p) :
    (statementOf arith cond program).Sound (DerivesStmt d) := by
  intro ts s n h
  cases ts with
  | nil => cases h
  | cons t rest =>
    rw [statementOf_cons] at h
    split at h
    · exact sound_whileOf hcond hprogram _ _ _ h
    · exact sound_ifOf hcond hprogram _ _ _ h
    · exact sound_skip d _ _ _ h
    · split at h
      · exact sound_assignOf harith _ _ _ h
      · cases h
    · cases h

/-- Statements that are derived one by one make up a program. -/
theorem derivesProgram_of_concat {d : Nat} {us vs : List Token} {s : Stmt} {ss : List Stmt}
    (hs : DerivesStmt d us s) (hss : Concat (DerivesStmt d) vs ss) :
    DerivesProgram d (us ++ vs) (.ofStmts s ss) := by
  induction hss generalizing us s with
  | nil =>
    rw [List.append_nil]
    exact .last hs
  | cons first rest ih => exact .seq hs (ih first)

theorem sound_programOf {statement : Phrase Stmt} {d : Nat}
    (h : statement.Sound (DerivesStmt d)) : (programOf statement).Sound (DerivesProgram d) := by
  intro ts p n hp
  obtain ⟨us, rest, s, _, rfl, hs, h₁, rfl⟩ := h.step hp
  obtain ⟨vs, rest, ss, _, rfl, hss, h₂, rfl⟩ := (sound_many h).step h₁
  obtain ⟨rfl, rfl⟩ := Outcome.ok.inj h₂
  exact ⟨us ++ vs, rest, by simp, by simp, derivesProgram_of_concat hs hss⟩

theorem sound_statement (d : Nat) : (statement d).Sound (DerivesStmt d) := by
  induction d using Nat.strongRecOn with
  | _ d ih =>
    rw [statement_eq]
    exact sound_statementOf (sound_arith d) (sound_nested fun b _ => sound_cond b)
      (sound_nested fun b hb => sound_programOf (ih b (by omega)))

/-- A program that is read is derived. -/
theorem sound_program (d : Nat) : (program d).Sound (DerivesProgram d) :=
  sound_programOf (sound_statement d)

end WhileFrontend.Phrase
