import WhileFrontend.Proofs.Parsing.Breaking
import WhileFrontend.Proofs.Parsing.Depth
import WhileFrontend.Proofs.Parsing.Exactness

/-!
# The limit on nesting

A budget of nesting is a limit on the cost of positions (`within_program`), and what is read within
a budget is read alike within a larger one (`persists_program`). So the limit shows only in programs
that go beyond it, and there before any fault that comes later.

## Two tokens ahead

The parser looks at no more than two tokens behind those that it uses. If the cost up to a fault
leaves room for those two, the tokens up to there stay within the budget whatever they are, and what
is read of them is read of the whole list (`program_eq_of_costAt`). If on the other hand the cost is
above the limit somewhere before the fault, by more than one token adds, then the parser has not
looked beyond that position, so that nothing behind it counts (`program_tooDeep_of_costAt`).
-/

namespace WhileFrontend

namespace Outcome

variable {α : Type} {o : Outcome α}

theorem lookahead_le (o : Outcome α) : o.lookahead ≤ o.used + 2 := by
  cases o with
  | ok a n => exact Nat.le_succ (n + 1)
  | fail f n =>
    have hpending : f.pending.length ≤ 1 := by
      rcases f.pending_eq_nil_or with h | ⟨t, rfl, ht⟩
      · simp [h]
      · simp [ParseFault.pending_noStatement ht]
    exact Nat.add_le_add_left hpending (n + 1)

theorem exists_of_not_inBudget (h : ¬ o.InBudget) : ∃ n, o = .fail .tooDeep n := by
  cases o with
  | ok a n => exact absurd trivial h
  | fail f n =>
    have hf : f = .tooDeep := Decidable.not_not.mp h
    exact ⟨n, by rw [hf]⟩

end Outcome

namespace Phrase

variable {ts us : List Token} {d d' : Nat}

/-! ## Programs within a budget -/

theorem inBudget_of_costAt (h : ∀ i, costAt ts i ≤ d) : (program d ts).InBudget := by
  have hwithin := within_program d ts
  cases hp : program d ts with
  | ok p n => trivial
  | fail f n =>
    rintro rfl
    rw [hp, Outcome.Within, if_pos rfl] at hwithin
    exact absurd (h n) (Nat.not_le.mpr hwithin)

theorem costAt_le_of_inBudget (h : (program d ts).InBudget) :
    ∀ i ≤ (program d ts).used, costAt ts i ≤ d := by
  have hwithin := within_program d ts
  cases hp : program d ts with
  | ok p n =>
    rw [hp] at hwithin
    obtain ⟨hfront, hend, -⟩ := hwithin
    intro i hi
    rcases Nat.lt_or_eq_of_le hi with hlt | rfl
    · exact hfront i hlt
    · rw [costAt, hend]
      exact Nat.zero_le d
  | fail f n =>
    rw [hp] at h hwithin
    rw [Outcome.Within, if_neg h] at hwithin
    exact hwithin

/-- All budgets that suffice give the same. -/
theorem program_eq_of_inBudget (h : (program d ts).InBudget) (h' : (program d' ts).InBudget) :
    program d ts = program d' ts := by
  have hd := persists_program (Nat.le_max_left d d') ts ts h (Agree.refl _ ts)
  have hd' := persists_program (Nat.le_max_right d d') ts ts h' (Agree.refl _ ts)
  exact hd.symm.trans hd'

/-- What is read of a token list within some budget is read of it within any budget that leaves room
for two tokens more. -/
theorem program_eq_of_costAt (h : (program d' ts).InBudget)
    (hcost : ∀ i ≤ (program d' ts).used, costAt ts i + 6 ≤ d) : program d ts = program d' ts := by
  generalize hk : (program d' ts).used = k at hcost
  have hlook : (program d' ts).lookahead ≤ k + 2 := hk ▸ (program d' ts).lookahead_le
  have hfront : Agree (k + 2) ts (ts.take (k + 2)) :=
    Agree.of_take_eq (by rw [List.take_take, Nat.min_self])
  have hread : program d' (ts.take (k + 2)) = program d' ts :=
    persists_program (Nat.le_refl d') _ _ h (hfront.mono hlook)
  have hroom : ∀ i, costAt (ts.take (k + 2)) i ≤ d := by
    intro i
    rw [costAt_take]
    by_cases hik : min i (k + 2) ≤ k
    · have := hcost _ hik
      omega
    · obtain ⟨n, hn⟩ := Nat.exists_eq_add_of_le (Nat.le_of_not_le hik)
      have hlast := hcost k (Nat.le_refl k)
      have hstep := costAt_add_le ts k n
      rw [hn]
      omega
  have hsame : program d (ts.take (k + 2)) = program d' ts :=
    (program_eq_of_inBudget (inBudget_of_costAt hroom) (by rwa [hread])).trans hread
  have hagain : program d ts = program d (ts.take (k + 2)) := by
    refine persists_program (Nat.le_refl d) _ _ (inBudget_of_costAt hroom) ?_
    rw [hsame]
    exact hfront.symm.mono hlook
  exact hagain.trans hsame

/-- Where a position before the fault costs more than the budget, the program is too deep, whatever
stands behind that position. -/
theorem program_tooDeep_of_costAt {i : Nat} (h : (program d' ts).InBudget)
    (hi : i < (program d' ts).used) (hcost : d + 3 < costAt ts i) (hus : us.take i = ts.take i) :
    ∃ n, program d us = .fail .tooDeep n := by
  apply Outcome.exists_of_not_inBudget
  intro hbudget
  have hus_cost : costAt us i = costAt ts i := by rw [costAt, costAt, hus]
  generalize hm : (program d us).used = m
  have hbefore : ∀ j ≤ m, costAt us j ≤ d := hm ▸ costAt_le_of_inBudget hbudget
  -- the position is neither one that was used nor the next one: all that was looked at is before it
  have hlook : (program d us).lookahead ≤ i := by
    have hused := hm ▸ (program d us).lookahead_le
    have hne : ¬ i ≤ m := fun hle => by
      have := hbefore i hle
      omega
    have hne' : i ≠ m + 1 := by
      rintro rfl
      have hlast := hbefore m (Nat.le_refl m)
      have hstep := costAt_succ_le us m
      omega
    omega
  have hread : program d ts = program d us :=
    persists_program (Nat.le_refl d) _ _ hbudget ((Agree.of_take_eq hus).mono hlook)
  have hbudget' : (program d ts).InBudget := by rwa [hread]
  have hle := costAt_le_of_inBudget hbudget' i
  rw [program_eq_of_inBudget hbudget' h] at hle
  have := hle (Nat.le_of_lt hi)
  omega

/-! ## Whole programs -/

theorem used_wholeProgram (d : Nat) (ts : List Token) :
    (wholeProgram d ts).used = (program d ts).used := by
  rw [wholeProgram_apply]
  cases program d ts with
  | ok p n =>
    dsimp only
    split <;> rfl
  | fail f n => cases f <;> rfl

theorem wholeProgram_congr (h : program d ts = program d' ts) :
    wholeProgram d ts = wholeProgram d' ts := by
  rw [wholeProgram_apply, wholeProgram_apply, h]

theorem wholeProgram_of_tooDeep {n : Nat} (h : program d ts = .fail .tooDeep n) :
    wholeProgram d ts = .fail .programTooDeep n := by
  rw [wholeProgram_apply, h]

/-- A whole program is all that stands before the first end marker. -/
theorem length_beforeEnd_of_wholeProgram {p : Program} {n : Nat} (h : wholeProgram d ts = .ok p n) :
    n = (beforeEnd ts).length := by
  rw [wholeProgram_apply] at h
  cases hp : program d ts with
  | ok q m =>
    obtain ⟨us, rest, rfl, rfl, hq⟩ := sound_program d _ _ _ hp
    simp only [hp, List.drop_left] at h
    split at h
    · next hend =>
      obtain ⟨-, rfl⟩ := Outcome.ok.inj h
      rw [beforeEnd_append hq.noEnd hend]
    · cases h
  | fail f m =>
    rw [hp] at h
    cases f <;> cases h

/-- A whole program, read without a limit on its nesting: no position costs more than three for each
token before it. -/
def unlimited : Phrase Program := fun ts =>
  wholeProgram (3 * ts.length) ts

/-- Three units for each token are a budget that suffices. -/
theorem inBudget_of_length (hd : 3 * ts.length ≤ d) : (program d ts).InBudget :=
  inBudget_of_costAt fun i => Nat.le_trans (costAt_le ts i) hd

theorem used_unlimited (ts : List Token) :
    (unlimited ts).used = (program (3 * ts.length) ts).used :=
  used_wholeProgram _ ts

/--
**Only nesting is limited, and the earlier fault wins.** The unlimited parser reads every token list
as any budget does that is large enough. Let it find its fault at position `k`, or at the first end
marker if it finds none. If no position up to `k` costs 750 or more, the list is read as without a
limit, however long its chains and sequences are. If a position before `k` costs more than 1400,
then the program is nested too deeply, and so is every program that is the same up to that position.
-/
theorem wholeProgram_nestingLimit (ts : List Token) :
    (∀ d, 3 * ts.length ≤ d →
      wholeProgram d ts = unlimited ts ∧ ∀ n, program d ts ≠ .fail .tooDeep n) ∧
    (∀ p n, unlimited ts = .ok p n → n = (beforeEnd ts).length) ∧
    ((∀ i ≤ (unlimited ts).used, costAt ts i < 750) →
      wholeProgram nestingLimit ts = unlimited ts) ∧
    (∀ i < (unlimited ts).used, 1400 < costAt ts i → ∀ us, us.take i = ts.take i →
      ∃ n, wholeProgram nestingLimit us = .fail .programTooDeep n ∧
        program nestingLimit us = .fail .tooDeep n) := by
  have hunlimited : (program (3 * ts.length) ts).InBudget := inBudget_of_length (Nat.le_refl _)
  have hlimit : nestingLimit = 1000 := rfl
  refine ⟨?_, ?_, ?_, ?_⟩
  · intro d hd
    have hbudget : (program d ts).InBudget := inBudget_of_length hd
    refine ⟨wholeProgram_congr (program_eq_of_inBudget hbudget hunlimited), fun n hn => ?_⟩
    rw [hn] at hbudget
    exact hbudget rfl
  · intro p n h
    exact length_beforeEnd_of_wholeProgram h
  · intro hcost
    rw [used_unlimited] at hcost
    refine wholeProgram_congr (program_eq_of_costAt hunlimited fun i hi => ?_)
    have := hcost i hi
    omega
  · intro i hi hcost us hus
    rw [used_unlimited] at hi
    obtain ⟨n, hn⟩ := program_tooDeep_of_costAt (d := nestingLimit) hunlimited hi (by omega) hus
    exact ⟨n, wholeProgram_of_tooDeep hn, hn⟩

/-- Parentheses that are never closed: 470 of them are too deep before the missing operand is found,
and 200 are not. -/
theorem wholeProgram_nestingLimit_parentheses :
    let assigned (n : Nat) : List Token :=
      [.ident ['x'], .symbol .assign] ++ List.replicate n (.symbol .lparen)
    (471 < (unlimited (assigned 470)).used ∧ 1400 < costAt (assigned 470) 471 ∧
      ∀ us, us.take 471 = (assigned 470).take 471 →
        ∃ n, wholeProgram nestingLimit us = .fail .programTooDeep n) ∧
    (∀ i ≤ (unlimited (assigned 200)).used, costAt (assigned 200) i < 750) ∧
    wholeProgram nestingLimit (assigned 200) = unlimited (assigned 200) := by
  intro assigned
  have hused : 471 < (unlimited (assigned 470)).used := by decide +kernel
  have hcost : 1400 < costAt (assigned 470) 471 := by decide +kernel
  have hlow : ∀ i ≤ (unlimited (assigned 200)).used, costAt (assigned 200) i < 750 := by
    intro i hi
    have hshort : (unlimited (assigned 200)).used < 250 := by decide +kernel
    have hstart := costAt_add_le (assigned 200) 0 i
    rw [Nat.zero_add] at hstart
    have hzero : costAt (assigned 200) 0 = 0 := rfl
    omega
  refine ⟨⟨hused, hcost, fun us hus => ?_⟩, hlow,
    (wholeProgram_nestingLimit (assigned 200)).2.2.1 hlow⟩
  obtain ⟨n, hn, -⟩ := (wholeProgram_nestingLimit (assigned 470)).2.2.2 471 hused hcost us hus
  exact ⟨n, hn⟩

/-- Behind an end marker anything may stand: it is not parsed, so it is not too deep. -/
theorem not_tooDeep_behind_end :
    ¬ ∀ (ts : List Token) (i : Nat),
      i < (match unlimited ts with
        | .ok _ _ => ts.length
        | .fail _ k => k) →
      1400 < costAt ts i → parseTokens ts = .error .programTooDeep := by
  intro h
  let program : List Token := [.keyword .skipKw, .symbol .semicolon]
  let behind : List Token := .eof :: List.replicate 500 (.symbol .lparen)
  have hread : ∀ d, wholeProgram d (program ++ behind) = .ok (.last .skip) 2 := by
    intro d
    have hskip : DerivesProgram d program (.last .skip) := .last (.skip rfl rfl)
    have hprogram : Phrase.program d (program ++ behind) = .ok (.last .skip) 2 :=
      reads_program hskip rfl
    rw [wholeProgram_apply, hprogram]
    rfl
  have hcost : 1400 < costAt (program ++ behind) 502 := by decide +kernel
  have hk : 502 < (match unlimited (program ++ behind) with
      | .ok _ _ => (program ++ behind).length
      | .fail _ k => k) := by
    rw [unlimited, hread]
    decide +kernel
  have htooDeep := h _ 502 hk hcost
  rw [parseTokens, hread] at htooDeep
  cases htooDeep

end Phrase

end WhileFrontend
