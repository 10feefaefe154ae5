import WhileFrontend.Proofs.Parsing.Progress

/-!
# Parsing from any position

Where a walk starts decides through which tokens it goes:

* At or after the start it goes as from the start of what is left of the list, which is nothing past
  the end.
* Before the start, no further from it than the list is long, positions count from the end. The
  position passes from there through the start, so the walk goes as from the start of a list that
  holds the end of the list and then the whole of it.
* Further before the start the first token asked for is out of range, and the position stays.

## Mechanism

No procedure looks at its position: it decides on tokens only, and moves on by a number of tokens.
So the walk from a position is compared with the walk from the start of what lies ahead of it
(`Walk.Shifts`), and each way of putting procedures together keeps the two the same up to the
distance between their positions. A loop goes round again by the number of tokens left, which is the
same on both sides.

No procedure comes to anything without a look at the token at its position, so out of range each of
them ends with that look (`Walk.Looks`).
-/

namespace WhileFrontend

/-! ## What comes of a walk further on -/

namespace Mark

/-- The mark `n` positions further on. -/
def moved (n : Int) : Mark → Mark
  | read i => read (i + n)
  | turn start stop => turn (start + n) (stop + n)

@[simp] theorem moved_read (n i : Int) : (read i).moved n = read (i + n) := rfl

@[simp] theorem moved_turn (n start stop : Int) :
    (turn start stop).moved n = turn (start + n) (stop + n) := rfl

theorem moved_moved (m n : Int) (k : Mark) : (k.moved m).moved n = k.moved (m + n) := by
  cases k <;> simp [Int.add_assoc]

end Mark

namespace Walked

variable {α : Type}

/-- What comes of the walk `n` positions further on: the same answer, and each position moved. -/
def moved (n : Int) (w : Walked α) : Walked α :=
  { w with position := w.position + n, trail := w.trail.map (Mark.moved n) }

@[simp] theorem result_moved (n : Int) (w : Walked α) : (w.moved n).result = w.result := rfl

@[simp] theorem position_moved (n : Int) (w : Walked α) :
    (w.moved n).position = w.position + n := rfl

theorem moved_moved (m n : Int) (w : Walked α) : (w.moved m).moved n = w.moved (m + n) := by
  simp [moved, Int.add_assoc, Mark.moved_moved]

end Walked

/-! ## Walks that shift -/

namespace Walk

variable {α β : Type} {w : Walk α} {f : α → Walk β} {ts ahead : List Token} {p : Int}

/-- From the position the walk goes as it goes from the start of what lies ahead, and it does not
end before its start. -/
def ShiftsAt (w : Walk α) (ts : List Token) (p : Int) (ahead : List Token) : Prop :=
  w ts p = (w ahead 0).moved p ∧ ∃ n : Nat, (w ahead 0).position = n

/-- The same from every position that something lies ahead of. -/
def Shifts (w : Walk α) : Prop :=
  ∀ ts p ahead, LiesAhead ts p ahead → w.ShiftsAt ts p ahead

/-- Two walks that go as the same walk from a start go as each other. -/
theorem ShiftsAt.further {n : Nat} (hthere : w.ShiftsAt ts (p + n) (ahead.drop n))
    (hhere : w.ShiftsAt ahead n (ahead.drop n)) :
    w ts (n + p) = (w ahead n).moved p ∧ ∃ m : Nat, (w ahead n).position = m := by
  obtain ⟨hthere, m, hm⟩ := hthere
  obtain ⟨hhere, -⟩ := hhere
  refine ⟨?_, m + n, ?_⟩
  · rw [Int.add_comm, hthere, hhere, Walked.moved_moved, Int.add_comm]
  · rw [hhere, Walked.position_moved, hm, Int.natCast_add]

theorem ShiftsAt.result (h : w.ShiftsAt ts p ahead) : (w ts p).result = (w ahead 0).result := by
  rw [h.1, Walked.result_moved]

theorem shifts_pure (a : α) : (Pure.pure a : Walk α).Shifts :=
  fun _ p _ _ => ⟨by simp [Pure.pure, pure, Walked.moved], 0, rfl⟩

theorem shifts_fail (e : ParseFault) : (fail e : Walk α).Shifts :=
  fun _ p _ _ => ⟨by simp [fail, Walked.moved], 0, rfl⟩

theorem shifts_current : current.Shifts := by
  intro ts p ahead hahead
  rw [ShiftsAt, current_apply hahead, current_apply (LiesAhead.start ahead)]
  exact ⟨by simp [Walked.moved], 0, rfl⟩

theorem shifts_peek : peek.Shifts := by
  intro ts p ahead hahead
  simp only [ShiftsAt, peek, hahead.peek, (LiesAhead.start ahead).peek]
  exact ⟨by simp [Walked.moved, Int.add_comm], 0, rfl⟩

theorem shifts_advance : advance.Shifts := by
  intro ts p ahead hahead
  simp only [ShiftsAt, advance, hahead.advance, (LiesAhead.start ahead).advance]
  exact ⟨by simp [Walked.moved, Int.add_comm], 1, rfl⟩

theorem Shifts.bind (hw : w.Shifts) (hf : ∀ a, (f a).Shifts) : (w >>= f).Shifts := by
  intro ts p ahead hahead
  have hresult := (hw ts p ahead hahead).result
  obtain ⟨hmoved, n, hn⟩ := hw ts p ahead hahead
  cases hwalked : (w ahead 0).result with
  | error e =>
    rw [ShiftsAt, bind_of_error (hresult.trans hwalked), bind_of_error hwalked, hmoved]
    exact ⟨rfl, n, hn⟩
  | ok a =>
    -- both go on behind the same tokens, of which the same lie ahead
    obtain ⟨hnext, hforward⟩ := ShiftsAt.further (hf a _ _ _ (hahead.drop n))
      (hf a _ _ _ (LiesAhead.of_natCast ahead n))
    rw [ShiftsAt, bind_of_ok (hresult.trans hwalked), bind_of_ok hwalked, hmoved,
      Walked.position_moved, hn, hnext]
    exact ⟨by simp [Walked.moved], hforward⟩

theorem Shifts.map (h : w.Shifts) (g : α → β) : (w.map g).Shifts := by
  intro ts p ahead hahead
  obtain ⟨hmoved, hforward⟩ := h ts p ahead hahead
  rw [ShiftsAt, Walk.map, Walk.map, hmoved]
  exact ⟨rfl, hforward⟩

theorem shifts_expect (k : Kind) : (expect k).Shifts := by
  refine shifts_current.bind fun t => ?_
  split
  · exact shifts_advance.bind fun _ => shifts_pure t
  · exact shifts_fail _

theorem shifts_nested {cost d : Nat} {w : Nat → Walk α} (h : ∀ b, b + cost = d → (w b).Shifts) :
    (nested cost w d).Shifts := by
  unfold nested
  split
  · next hcost => exact h _ (Nat.sub_add_cancel hcost)
  · exact shifts_fail _

/-! ## Loops -/

section loop

variable {turn? : α → Kind → Option (Walk α)} {a : α} {turn : Walk α}

/-- As many tokens are left from there as from here. -/
theorem tokensLeft_further (hahead : LiesAhead ts p ahead) (n : Nat) :
    tokensLeft ts (n + p) = tokensLeft ahead n := by
  rw [Int.add_comm, ← (hahead.drop n).length_eq, ← (LiesAhead.of_natCast ahead n).length_eq]

/-- A loop shifts with its turn, if the loop behind that turn shifts wherever fewer tokens are
left. -/
theorem shiftsAt_loop (hahead : LiesAhead ts p ahead)
    (hturn : turn? a (frontKind ahead) = some turn) (hshift : turn.ShiftsAt ts p ahead)
    (hloop : ∀ (next : α) (n : Nat), (ahead.drop n).length < ahead.length →
      loop turn? next ts (n + p) = (loop turn? next ahead n).moved p ∧
        ∃ m : Nat, (loop turn? next ahead n).position = m) :
    (loop turn? a).ShiftsAt ts p ahead := by
  have hstart := LiesAhead.start ahead
  have hresult := hshift.result
  obtain ⟨hmoved, n, hn⟩ := hshift
  cases hturned : (turn ahead 0).result with
  | error e =>
    rw [ShiftsAt, loop_of_error hahead hturn (hresult.trans hturned),
      loop_of_error hstart hturn hturned, hmoved]
    exact ⟨by simp [Walked.moved], n, hn⟩
  | ok next =>
    -- whether the loop goes on is asked of the same numbers on both sides
    have hleft : tokensLeft ts p = tokensLeft ahead 0 := by
      rw [← hahead.length_eq, hstart.length_eq]
    rw [ShiftsAt, loop_of_ok hahead hturn (hresult.trans hturned), loop_of_ok hstart hturn hturned,
      hmoved, Walked.position_moved, hn, tokensLeft_further hahead n, hleft]
    split
    · next hless =>
      rw [← (LiesAhead.of_natCast ahead n).length_eq, ← hstart.length_eq] at hless
      obtain ⟨hnext, hforward⟩ := hloop next n hless
      rw [hnext]
      exact ⟨by simp [Walked.moved], hforward⟩
    · exact ⟨by simp [Walked.moved], n, rfl⟩

theorem shifts_loop (h : ∀ a k turn, turn? a k = some turn → turn.Shifts) (a : α) :
    (loop turn? a).Shifts := by
  intro ts p ahead hahead
  -- each turn leaves fewer tokens ahead
  induction hlength : ahead.length using Nat.strongRecOn generalizing a ts p ahead with
  | _ m ih =>
    cases hturn : turn? a (frontKind ahead) with
    | none =>
      rw [ShiftsAt, loop_of_none hahead hturn, loop_of_none (LiesAhead.start ahead) hturn]
      exact ⟨by simp [Walked.moved], 0, rfl⟩
    | some turn =>
      refine shiftsAt_loop hahead hturn (h a _ turn hturn ts p ahead hahead) fun next n hless => ?_
      rw [hlength] at hless
      exact ShiftsAt.further (ih _ hless next ts (p + n) _ (hahead.drop n) rfl)
        (ih _ hless next ahead n _ (LiesAhead.of_natCast ahead n) rfl)

section chain

variable {γ : Type} {op? : Kind → Option γ} {combine : γ → α → α → α}

theorem shifts_chain (h : w.Shifts) : (chain op? combine w).Shifts := by
  refine h.bind fun first => shifts_loop (fun left k turn hturn => ?_) first
  obtain ⟨op, -, rfl⟩ := Option.map_eq_some_iff.mp hturn
  exact shifts_advance.bind fun _ => h.bind fun right => shifts_pure (combine op left right)

end chain

theorem shifts_loop_itemTurn {starts : Kind → Bool} (h : w.Shifts) (before : List α) :
    (loop (itemTurn starts w) before).Shifts := by
  refine shifts_loop (fun before k turn hturn => ?_) before
  unfold itemTurn at hturn
  split at hturn
  · obtain rfl := Option.some.inj hturn
    exact h.bind fun a => shifts_pure (before ++ [a])
  · cases hturn

end loop

/-! ## Arithmetic expressions -/

section arithmetic

variable {inner : Walk Arith}

theorem shifts_factorOf (h : inner.Shifts) : (factorOf inner).Shifts := by
  refine shifts_current.bind fun t => ?_
  split
  · exact shifts_advance.bind fun _ => h.bind fun e =>
      (shifts_expect _).bind fun _ => shifts_pure e
  · split
    · exact shifts_advance.bind fun _ => shifts_pure _
    · exact shifts_fail _
  · split
    · exact shifts_advance.bind fun _ => shifts_pure _
    · exact shifts_fail _
  · exact shifts_fail _

theorem shifts_summandOf (h : inner.Shifts) : (summandOf inner).Shifts :=
  shifts_chain (shifts_factorOf h)

theorem shifts_arith (d : Nat) : (arith d).Shifts := by
  induction d using Nat.strongRecOn with
  | _ d ih =>
    rw [arith_eq]
    exact shifts_chain (shifts_summandOf (shifts_nested fun b hb => ih b (by omega)))

end arithmetic

/-! ## Conditions -/

section conditions

variable {arith : Walk Arith}

theorem shifts_comparisonOf (h : arith.Shifts) : (comparisonOf arith).Shifts := by
  refine h.bind fun left => shifts_current.bind fun t => ?_
  split
  · exact shifts_advance.bind fun _ => h.bind fun _ => shifts_pure _
  · exact shifts_fail _

theorem shifts_conjunctOf {inner operand : Walk Cond} (ha : arith.Shifts) (hi : inner.Shifts)
    (ho : operand.Shifts) : (conjunctOf arith inner operand).Shifts := by
  refine shifts_current.bind fun t => ?_
  split
  · exact shifts_advance.bind fun _ => hi.bind fun c =>
      (shifts_expect _).bind fun _ => shifts_pure c
  · exact shifts_advance.bind fun _ => ho.bind fun _ => shifts_pure _
  · exact shifts_advance.bind fun _ => shifts_pure _
  · exact shifts_advance.bind fun _ => shifts_pure _
  · exact shifts_comparisonOf ha

theorem shifts_condOf {conjunct : Walk Cond} (h : conjunct.Shifts) : (condOf conjunct).Shifts :=
  shifts_chain (shifts_chain h)

theorem shifts_conjunct (d : Nat) : (conjunct d).Shifts := by
  induction d using Nat.strongRecOn with
  | _ d ih =>
    rw [conjunct_eq]
    exact shifts_conjunctOf (shifts_arith d)
      (shifts_nested fun b hb => shifts_condOf (ih b (by omega)))
      (shifts_nested fun b hb => ih b (by omega))

theorem shifts_cond (d : Nat) : (cond d).Shifts :=
  shifts_condOf (shifts_conjunct d)

end conditions

/-! ## Statements -/

section statements

variable {arith : Walk Arith} {cond : Walk Cond} {program : Walk Program}

theorem shifts_whileOf (hc : cond.Shifts) (hp : program.Shifts) : (whileOf cond program).Shifts :=
  (shifts_expect _).bind fun _ => hc.bind fun _ => (shifts_expect _).bind fun _ =>
    hp.bind fun _ => (shifts_expect _).bind fun _ => shifts_pure _

theorem shifts_ifOf (hc : cond.Shifts) (hp : program.Shifts) : (ifOf cond program).Shifts := by
  refine (shifts_expect _).bind fun _ => hc.bind fun _ => (shifts_expect _).bind fun _ =>
    hp.bind fun _ => shifts_current.bind fun t => ?_
  split
  · exact shifts_advance.bind fun _ => hp.bind fun _ =>
      (shifts_expect _).bind fun _ => shifts_pure _
  · exact (shifts_expect _).bind fun _ => shifts_pure _

theorem shifts_skip : skip.Shifts :=
  (shifts_expect _).bind fun _ => (shifts_expect _).bind fun _ => shifts_pure _

theorem shifts_assignOf (h : arith.Shifts) : (assignOf arith).Shifts := by
  refine (shifts_expect _).bind fun target => ?_
  split
  · exact (shifts_expect _).bind fun _ => h.bind fun _ =>
      (shifts_expect _).bind fun _ => shifts_pure _
  · exact shifts_fail _

theorem shifts_statementOf (ha : arith.Shifts) (hc : cond.Shifts) (hp : program.Shifts) :
    (statementOf arith cond program).Shifts := by
  refine shifts_current.bind fun t => ?_
  split
  · exact shifts_whileOf hc hp
  · exact shifts_ifOf hc hp
  · exact shifts_skip
  · refine shifts_peek.bind fun second => ?_
    split
    · exact shifts_assignOf ha
    · exact shifts_fail _
  · exact shifts_fail _

theorem shifts_programOf {statement : Walk Stmt} (h : statement.Shifts) :
    (programOf statement).Shifts :=
  h.bind fun _ => (shifts_loop_itemTurn h []).bind fun _ => shifts_pure _

theorem shifts_statement (d : Nat) : (statement d).Shifts := by
  induction d using Nat.strongRecOn with
  | _ d ih =>
    rw [statement_eq]
    exact shifts_statementOf (shifts_arith d) (shifts_nested fun b _ => shifts_cond b)
      (shifts_nested fun b hb => shifts_programOf (ih b (by omega)))

end statements

theorem shifts_program (d : Nat) : (program d).Shifts :=
  shifts_programOf (shifts_statement d)

theorem shifts_outermost (d : Nat) : (outermost d).Shifts := by
  intro ts p ahead hahead
  obtain ⟨hmoved, hforward⟩ := shifts_program d ts p ahead hahead
  rw [ShiftsAt, outermost, outermost, hmoved]
  generalize program d ahead 0 = walked at hforward
  obtain ⟨((_ | fault) | _) | _, q, trail⟩ := walked
  · exact ⟨rfl, hforward⟩
  · cases fault <;> exact ⟨rfl, hforward⟩
  · exact ⟨rfl, hforward⟩
  · exact ⟨rfl, hforward⟩

theorem shifts_wholeProgram (d : Nat) : (wholeProgram d).Shifts := by
  refine (shifts_outermost d).bind fun p => shifts_current.bind fun t => ?_
  split
  · exact shifts_pure p
  · exact shifts_fail _

/-- **The walk of every nonterminal shifts.** -/
theorem shifts_walk (d : Nat) (nt : Nonterminal) : (nt.walk d).Shifts := by
  have harith : (nested 3 arith d).Shifts := shifts_nested fun b _ => shifts_arith b
  have hcond : (nested 3 cond d).Shifts := shifts_nested fun b _ => shifts_cond b
  have hprogram : (nested 3 program d).Shifts := shifts_nested fun b _ => shifts_program b
  cases nt with
  | wholeProgram => exact (shifts_wholeProgram d).map _
  | program => exact (shifts_program d).map _
  | statement => exact (shifts_statement d).map _
  | whileDo => exact (shifts_whileOf hcond hprogram).map _
  | ifThenElse => exact (shifts_ifOf hcond hprogram).map _
  | skip => exact shifts_skip.map _
  | assign => exact (shifts_assignOf (shifts_arith d)).map _
  | arith => exact (shifts_arith d).map _
  | summand => exact (shifts_summandOf harith).map _
  | factor => exact (shifts_factorOf harith).map _
  | cond => exact (shifts_cond d).map _
  | disjunct => exact (shifts_chain (shifts_conjunct d)).map _
  | conjunct => exact (shifts_conjunct d).map _
  | comparison => exact (shifts_comparisonOf (shifts_arith d)).map _

/-! ## Walks out of range -/

/-- The walk starts with a look at the token at its position, so where there is none to be read, it
ends with that look. -/
def Looks (w : Walk α) : Prop :=
  ∀ ts p, p < -(ts.length : Int) →
    w ts p = { result := .error (.fault .outOfRange), position := p, trail := [.read p] }

theorem looks_current : current.Looks := by
  intro ts p hlow
  have hahead : ({ tokens := ts, position := p } : Cursor).aheadFrom? p = none :=
    Cursor.aheadFrom?_of_lt hlow
  rw [current, Cursor.current, Cursor.tokenAt, hahead]
  rfl

theorem Looks.bind (h : w.Looks) : (w >>= f).Looks := by
  intro ts p hlow
  have hw := h ts p hlow
  rw [bind_of_error (congrArg Walked.result hw), hw]

theorem Looks.map (h : w.Looks) (g : α → β) : (w.map g).Looks := by
  intro ts p hlow
  rw [Walk.map, h ts p hlow]
  rfl

theorem looks_expect (k : Kind) : (expect k).Looks :=
  looks_current.bind

theorem looks_chain {γ : Type} {op? : Kind → Option γ} {combine : γ → α → α → α} (h : w.Looks) :
    (chain op? combine w).Looks :=
  h.bind

theorem looks_factorOf (inner : Walk Arith) : (factorOf inner).Looks :=
  looks_current.bind

theorem looks_summandOf (inner : Walk Arith) : (summandOf inner).Looks :=
  looks_chain (looks_factorOf inner)

theorem looks_arith (d : Nat) : (arith d).Looks := by
  rw [arith_eq]
  exact looks_chain (looks_summandOf _)

theorem looks_conjunct (d : Nat) : (conjunct d).Looks := by
  rw [conjunct_eq]
  exact looks_current.bind

theorem looks_statement (d : Nat) : (statement d).Looks := by
  rw [statement_eq]
  exact looks_current.bind

theorem looks_program (d : Nat) : (program d).Looks :=
  (looks_statement d).bind

theorem looks_outermost (d : Nat) : (outermost d).Looks := by
  intro ts p hlow
  rw [outermost, looks_program d ts p hlow]

/-- **The walk of every nonterminal starts with a look.** -/
theorem looks_walk (d : Nat) (nt : Nonterminal) : (nt.walk d).Looks := by
  cases nt with
  | wholeProgram => exact (looks_outermost d).bind.map _
  | program => exact (looks_program d).map _
  | statement => exact (looks_statement d).map _
  | whileDo => exact (looks_expect _).bind.map _
  | ifThenElse => exact (looks_expect _).bind.map _
  | skip => exact (looks_expect _).bind.map _
  | assign => exact (looks_expect _).bind.map _
  | arith => exact (looks_arith d).map _
  | summand => exact (looks_summandOf _).map _
  | factor => exact (looks_factorOf _).map _
  | cond => exact (looks_chain (looks_chain (looks_conjunct d))).map _
  | disjunct => exact (looks_chain (looks_conjunct d)).map _
  | conjunct => exact (looks_conjunct d).map _
  | comparison => exact (looks_arith d).bind.map _

end Walk

/-! ## All positions -/

namespace Cursor

variable {c : Cursor} {i : Int}

/-- The item of the list at an index, which counts from the end if it is negative. -/
def item? (c : Cursor) (i : Int) : Option Token :=
  if 0 ≤ i then c.tokens[i.toNat]?
  else if -c.length ≤ i then c.tokens[(c.length + i).toNat]?
  else none

theorem item?_of_nonneg (h : 0 ≤ i) : c.item? i = c.tokens[i.toNat]? :=
  if_pos h

theorem item?_of_neg (h : i < 0) (hlow : -c.length ≤ i) :
    c.item? i = c.tokens[(c.length + i).toNat]? := by
  rw [item?, if_neg (Int.not_le.mpr h), if_pos hlow]

theorem item?_of_lt (h : i < -c.length) : c.item? i = none := by
  rw [item?, if_neg (Int.not_le.mpr (neg_of_lt h)), if_neg (Int.not_le.mpr h)]

/-- The token at a position is the item at that index, and behind the list the end marker. The index
is compared with the upper bound only, so a negative one counts from the end or is out of range. -/
theorem tokenAt_eq_item (c : Cursor) (i : Int) :
    c.tokenAt i
      = if i < c.length then (c.item? i).elim (.error .outOfRange) .ok else .ok .eof := by
  have hlength : c.length = c.tokens.length := rfl
  by_cases hlow : i < -c.length
  · rw [tokenAt, aheadFrom?_of_lt hlow, if_pos (by omega), item?_of_lt hlow, Option.elim_none]
  by_cases hneg : i < 0
  · have hlow := Int.not_lt.mp hlow
    have htoken : c.tokenAt i = _ := (LiesAhead.of_neg hneg hlow).current
    have hindex : (c.tokens.length + i).toNat < c.tokens.length := by omega
    rw [htoken, if_pos (by omega), item?_of_neg hneg hlow, hlength,
      List.drop_eq_getElem_cons hindex, List.getElem?_eq_getElem hindex]
    rfl
  · have hpos := Int.not_lt.mp hneg
    have htoken : c.tokenAt i = _ := (LiesAhead.of_nonneg c.tokens hpos).current
    rw [htoken, item?_of_nonneg hpos]
    split
    · have hindex : i.toNat < c.tokens.length := by omega
      rw [List.drop_eq_getElem_cons hindex, List.getElem?_eq_getElem hindex]
      rfl
    · have hbehind : c.tokens.length ≤ i.toNat := by omega
      rw [List.drop_eq_nil_of_le hbehind]
      rfl

/-- From every position a cursor reads a nonterminal as its walk goes. -/
theorem read_eq_walk_from (d : Nat) (nt : Nonterminal) (ts : List Token) (p : Int) :
    let c : Cursor := { tokens := ts, position := p }
    (c.read d nt).1.mapError .fault = (nt.walk d ts p).result ∧
      (c.read d nt).2 = { c with position := (nt.walk d ts p).position } := by
  intro c
  by_cases hlow : p < -c.length
  · have hahead : c.ahead? = none := aheadFrom?_of_lt hlow
    rw [Walk.looks_walk d nt ts p hlow, read, hahead]
    exact ⟨rfl, rfl⟩
  · obtain ⟨ahead, hahead⟩ := LiesAhead.exists_of_le (Int.not_lt.mp hlow)
    exact read_eq_walk d nt hahead

end Cursor

/--
**Parsing from any position.** From a position at or after the start a nonterminal is parsed as from
the start of what is left of the list. From one before the start, no further than the list is long,
it is parsed as from the start of a list that holds the end of the list and then the whole of it.
The answer is the same, a node or a fault, and all positions, those of the tokens read included,
differ by the distance between the two starts. From a position that lies further before the start
nothing is parsed: the first token asked for is out of range, and the position stays. So it is for
the walk through the list, whose tokens are the items at its positions, and with it for what a
cursor reads.
-/
theorem Nonterminal.walk_from (d : Nat) (nt : Nonterminal) (ts : List Token) (p : Int) :
    let c : Cursor := { tokens := ts, position := p }
    (∀ i, c.tokenAt i
      = if i < c.length then (c.item? i).elim (.error .outOfRange) .ok else .ok .eof) ∧
    ((c.read d nt).1.mapError .fault = (nt.walk d ts p).result ∧
      (c.read d nt).2 = { c with position := (nt.walk d ts p).position }) ∧
    (0 ≤ p → nt.walk d ts p = (nt.walk d (ts.drop p.toNat) 0).moved p) ∧
    (-c.length ≤ p → p < 0 →
      nt.walk d ts p = (nt.walk d (ts.drop (c.length + p).toNat ++ ts) 0).moved p) ∧
    (p < -c.length →
      nt.walk d ts p
        = { result := .error (.fault .outOfRange), position := p, trail := [.read p] }) := by
  intro c
  refine ⟨c.tokenAt_eq_item, Cursor.read_eq_walk_from d nt ts p, fun hpos => ?_,
    fun hlow hneg => ?_, fun hlow => Walk.looks_walk d nt ts p hlow⟩
  · exact (Walk.shifts_walk d nt ts p _ (LiesAhead.of_nonneg ts hpos)).1
  · exact (Walk.shifts_walk d nt ts p _ (LiesAhead.of_neg hneg hlow)).1

/-- A sum that starts at the end of the list and goes on from its start, the number there by itself,
a sign that no sum starts with, and nothing from too far before the start. -/
theorem Nonterminal.walk_from_sum :
    let ts : List Token := [.symbol .plus, .number 2, .symbol .plus, .number 1]
    let one : Node := .const 1
    (arith.walk 12 ts (-1)).result.toOption = some (.arith .add (.arith .add one (.const 2)) one) ∧
    (arith.walk 12 ts (-1)).position = 4 ∧
    (arith.walk 12 ts 3).result.toOption = some one ∧
    (arith.walk 12 ts 2).result = .error (.fault (.parse (.noOperand (.symbol .plus)))) ∧
    (arith.walk 12 ts (-5)).result = .error (.fault .outOfRange) := by
  intro ts one
  obtain ⟨-, -, -, hbefore, -⟩ := Nonterminal.walk_from 12 .arith ts (-1)
  obtain ⟨-, -, hlast, -, -⟩ := Nonterminal.walk_from 12 .arith ts 3
  obtain ⟨-, -, hsign, -, -⟩ := Nonterminal.walk_from 12 .arith ts 2
  obtain ⟨-, -, -, -, hfar⟩ := Nonterminal.walk_from 12 .arith ts (-5)
  rw [hbefore (by decide) (by decide), hlast (by decide), hsign (by decide), hfar (by decide)]
  refine ⟨?_, ?_, ?_, rfl, rfl⟩ <;> decide +kernel

end WhileFrontend
