import WhileFrontend.Proofs.Parsing.Following

/-!
# Progress and bounds of a walk

A walk that starts in a token list or at its end stays there: it ends, it reads at no position
before its start or behind the end, it never moves back, and each turn of a loop and each success
takes it forward. So do any number of walks one after the other, failed ones included.

* **Bounds** are those of the phrase that the walk follows (`Walk.follows_phrase`).
* **Progress** is that of the phrase as well: what is derived is not empty (`Derives.length_pos`).
* **The end of the recursion**: procedures are nested in one another only behind a token, so three
  units of the budget for each token are enough (`inBudget_phrase_of_length`).
-/

namespace WhileFrontend

namespace Phrase

open Opened

variable {d : Nat} {nt : Nonterminal} {ts : List Token}

theorem used_pos_of_phrase (hnt : nt ≠ .wholeProgram) {n : Node} {k : Nat}
    (h : nt.phrase d ts = .ok n k) : 0 < k := by
  obtain ⟨us, rest, -, rfl, hn⟩ := sound_phrase d hnt ts n k h
  exact hn.length_pos

/-! ## A budget that suffices -/

theorem Within.map {α β : Type} {limit : Nat} {s : List Opened} {P : List Opened → Prop}
    {p : Phrase α} (h : p.Within limit s P) (g : α → β) : (p.map g).Within limit s P := by
  intro ts
  have hts := h ts
  rw [Phrase.map]
  cases hp : p ts with
  | ok a n =>
    rw [hp] at hts
    exact hts
  | fail f n =>
    rw [hp] at hts
    exact hts.of_fail

/-- The phrase of every nonterminal but the whole program stays within its budget or is too deep. -/
theorem exists_within_phrase (d : Nat) (hnt : nt ≠ .wholeProgram) :
    ∃ P, (nt.phrase d).Within d [] P := by
  have hs : cost [] ≤ d := Nat.zero_le d
  have hdeep : d < 3 → d < cost [group] := id
  have harith : (nested 3 arith d).Within d [group] (Same d [group]) :=
    within_nested hdeep fun b hb => within_arith (by rw [cost_group, ← hb]; rfl)
  have hcond : (nested 3 cond d).Within d [group] (Trailing d [group]) :=
    within_nested hdeep fun b hb => within_cond rfl (by rw [cost_group, ← hb]; rfl)
  have hprogram : (nested 3 program d).Within d [group] (Same d [group]) :=
    within_nested hdeep fun b hb =>
      within_programOf (by rw [cost_group, cost_nil, ← hb]; omega)
        (within_statement (by rw [cost_group, ← hb]; rfl))
  have hsummand : (summandOf (nested 3 arith d)).Within d [] (Same d []) := by
    refine within_chain ?_ (fun s' hs' => by rw [hs'.1]; exact hs) (within_factorOf hs harith)
    rintro k op s' hop ⟨rfl, -⟩
    exact behind_of_multiplicative? hop []
  have hdisjunct : (disjunctOf (conjunct d)).Within d [] (Trailing d []) :=
    within_chain (fun k op s' hop hs' => (behind_of_conjunctive? hop s').trans hs'.settle_eq)
      (fun s' hs' => hs'.2) (within_conjunct rfl)
  cases nt with
  | wholeProgram => exact absurd rfl hnt
  | program => exact ⟨_, (within_program d).map _⟩
  | statement => exact ⟨_, Within.map (within_statement rfl) _⟩
  | whileDo => exact ⟨_, (within_whileOf hs hcond hprogram).map _⟩
  | ifThenElse => exact ⟨_, (within_ifOf hs hcond hprogram).map _⟩
  | skip => exact ⟨_, (within_skip hs).map _⟩
  | assign => exact ⟨_, (within_assignOf hs (within_arith rfl)).map _⟩
  | arith => exact ⟨_, Within.map (within_arith rfl) _⟩
  | summand => exact ⟨_, hsummand.map _⟩
  | factor => exact ⟨_, (within_factorOf hs harith).map _⟩
  | cond => exact ⟨_, Within.map (within_cond rfl rfl) _⟩
  | disjunct => exact ⟨_, hdisjunct.map _⟩
  | conjunct => exact ⟨_, Within.map (within_conjunct rfl) _⟩
  | comparison => exact ⟨_, (within_comparisonOf (within_arith rfl)).map _⟩

/-- With three units for each token no nonterminal is too deep. -/
theorem inBudget_phrase_of_length (hnt : nt ≠ .wholeProgram) (hd : 3 * ts.length ≤ d) :
    (nt.phrase d ts).InBudget := by
  obtain ⟨P, hwithin⟩ := exists_within_phrase d hnt
  have hts := hwithin ts
  cases hphrase : nt.phrase d ts with
  | ok n k => trivial
  | fail f k =>
    rintro rfl
    rw [hphrase, Outcome.Within, if_pos rfl] at hts
    exact absurd (Nat.le_trans (costAt_le ts k) hd) (Nat.not_le.mpr hts)

end Phrase

/-! ## One walk -/

section walks

variable {ts : List Token} {p : Int}

/-- In the list or at its end, what lies ahead goes up to the end. -/
theorem LiesAhead.add_length (hstart : 0 ≤ p) (hend : p ≤ ts.length) :
    p + (ts.drop p.toNat).length = ts.length := by
  rw [List.length_drop]
  omega

/-- A cursor reads a nonterminal as its walk goes. -/
theorem Cursor.read_eq_walk (d : Nat) (nt : Nonterminal) {ahead : List Token}
    (h : LiesAhead ts p ahead) :
    (({ tokens := ts, position := p } : Cursor).read d nt).1.mapError .fault
        = (nt.walk d ts p).result ∧
      (({ tokens := ts, position := p } : Cursor).read d nt).2
        = { tokens := ts, position := (nt.walk d ts p).position } := by
  obtain ⟨hresult, hposition, -, -⟩ := Walk.follows_phrase d nt ts p ahead h
  have hahead : ({ tokens := ts, position := p } : Cursor).ahead? = some ahead := h
  rw [hresult, hposition, Cursor.read, hahead]
  dsimp only
  cases nt.phrase d ahead <;> exact ⟨rfl, rfl⟩

/-- What holds of every walk of a nonterminal but the whole program, from `p` to the end of the list
at the furthest. -/
structure WalksWithin (d : Nat) (nt : Nonterminal) (ts : List Token) (p : Int) : Prop where
  /-- The walk is how a cursor reads the nonterminal. -/
  isRead : (({ tokens := ts, position := p } : Cursor).read d nt).1.mapError .fault
      = (nt.walk d ts p).result ∧
    (({ tokens := ts, position := p } : Cursor).read d nt).2
      = { tokens := ts, position := (nt.walk d ts p).position }
  /-- No loop comes to a standstill. -/
  moves : (nt.walk d ts p).result ≠ .error .standstill
  /-- No token is out of range. -/
  inRange : (nt.walk d ts p).result ≠ .error (.fault .outOfRange)
  /-- The recursion ends by itself, whatever the limit on nesting. -/
  ends : 3 * ts.length ≤ d → (nt.walk d ts p).result ≠ .error (.fault (.parse .tooDeep))
  le : p ≤ (nt.walk d ts p).position
  le_length : (nt.walk d ts p).position ≤ ts.length
  /-- Success takes the position forward. -/
  progress : ∀ n, (nt.walk d ts p).result = .ok n → p < (nt.walk d ts p).position
  /-- Tokens are read within bounds, and each turn of a loop takes the position forward. -/
  trail : ∀ m ∈ (nt.walk d ts p).trail, m.Within p ts.length

theorem walksWithin (d : Nat) {nt : Nonterminal} (hnt : nt ≠ .wholeProgram) (hstart : 0 ≤ p)
    (hend : p ≤ ts.length) : WalksWithin d nt ts p := by
  have hahead := LiesAhead.of_nonneg ts hstart
  have hlength := LiesAhead.add_length hstart hend
  obtain ⟨hresult, hposition, hused, htrail⟩ := Walk.follows_phrase d nt ts p _ hahead
  rw [hlength] at htrail
  refine ⟨Cursor.read_eq_walk d nt hahead, ?_, ?_, fun hd => ?_, by omega, by omega, ?_, htrail⟩
  · rw [hresult]
    cases nt.phrase d (ts.drop p.toNat) <;> exact nofun
  · rw [hresult]
    cases nt.phrase d (ts.drop p.toNat) <;> exact nofun
  · have hbudget : (nt.phrase d (ts.drop p.toNat)).InBudget := by
      refine Phrase.inBudget_phrase_of_length hnt (Nat.le_trans ?_ hd)
      rw [List.length_drop]
      omega
    rw [hresult]
    cases hphrase : nt.phrase d (ts.drop p.toNat) with
    | ok n k => exact nofun
    | fail f k =>
      rw [hphrase] at hbudget
      rintro ⟨⟩
      exact hbudget rfl
  · intro n hn
    rw [hresult] at hn
    cases hphrase : nt.phrase d (ts.drop p.toNat) with
    | fail f k =>
      rw [hphrase] at hn
      cases hn
    | ok m k =>
      have hpos := Phrase.used_pos_of_phrase hnt hphrase
      rw [hposition, hphrase, Outcome.used]
      omega

/-- A cursor that reads a nonterminal finds every token that it asks for. -/
theorem WalksWithin.read_ne {d : Nat} {nt : Nonterminal} (h : WalksWithin d nt ts p) :
    (({ tokens := ts, position := p } : Cursor).read d nt).1 ≠ .error .outOfRange := by
  intro herror
  have hresult := h.isRead.1
  rw [herror] at hresult
  exact h.inRange hresult.symm

/-! ## Any number of walks -/

theorem Cursor.actAll_reads_cons (c : Cursor) (nt : Nonterminal) (rest : List Nonterminal) :
    c.actAll ((nt :: rest).map .read)
      = ((c.read nestingLimit nt).1.map .node, (c.read nestingLimit nt).2.position) ::
        (c.read nestingLimit nt).2.actAll (rest.map .read) := rfl

/-- Nonterminals that are read one after the other, failed ones included, do not move the position
back, nor behind the end. -/
theorem positions_of_reads {nts : List Nonterminal} (hnts : .wholeProgram ∉ nts) (hstart : 0 ≤ p)
    (hend : p ≤ ts.length) :
    List.Pairwise (· ≤ ·)
        (p :: (({ tokens := ts, position := p } : Cursor).actAll (nts.map .read)).map Prod.snd) ∧
      ∀ r ∈ ({ tokens := ts, position := p } : Cursor).actAll (nts.map .read),
        r.2 ≤ ts.length ∧ r.1 ≠ .error .outOfRange := by
  induction nts generalizing p with
  | nil =>
    rw [List.map_nil, Cursor.actAll]
    exact ⟨List.pairwise_singleton _ _, List.forall_mem_nil _⟩
  | cons nt rest ih =>
    rw [List.mem_cons, not_or] at hnts
    have hwalk := walksWithin nestingLimit (Ne.symm hnts.1) hstart hend
    obtain ⟨hpairs, hall⟩ := ih hnts.2 (Int.le_trans hstart hwalk.le) hwalk.le_length
    obtain ⟨hle, -⟩ := List.pairwise_cons.mp hpairs
    have hne := hwalk.read_ne
    rw [Cursor.actAll_reads_cons, hwalk.isRead.2]
    refine ⟨List.pairwise_cons.mpr ⟨?_, hpairs⟩,
      List.forall_mem_cons.mpr ⟨⟨hwalk.le_length, ?_⟩, hall⟩⟩
    · exact List.forall_mem_cons.mpr ⟨hwalk.le, fun q hq => Int.le_trans hwalk.le (hle q hq)⟩
    · cases hread : (({ tokens := ts, position := p } : Cursor).read nestingLimit nt).1 with
      | ok n => exact nofun
      | error f =>
        rw [hread] at hne
        rintro ⟨⟩
        exact hne rfl

end walks

/--
**Progress and bounds.** From a position in the list or at its end, the walk of every nonterminal
but the whole program ends, without a loop that stands still, and by itself if nesting is not
limited. It reads at positions from its start to the end of the list only. It ends no earlier than
it starts and no later than the list, further on than it starts if it succeeds, and each turn of its
loops takes it forward. So any number of nonterminals that are read one after the other, behind
failures too, never move the position back, nor out of the list.
-/
theorem reads_progress (ts : List Token) {p : Int} (hstart : 0 ≤ p) (hend : p ≤ ts.length) :
    (∀ (d : Nat) (nt : Nonterminal), nt ≠ .wholeProgram → WalksWithin d nt ts p) ∧
    ∀ nts : List Nonterminal, .wholeProgram ∉ nts →
      let c : Cursor := { tokens := ts, position := p }
      List.Pairwise (· ≤ ·) (p :: (c.actAll (nts.map .read)).map Prod.snd) ∧
      ∀ r ∈ c.actAll (nts.map .read), r.2 ≤ ts.length ∧ r.1 ≠ .error .outOfRange :=
  ⟨fun d _ hnt => walksWithin d hnt hstart hend, fun _ hnts => positions_of_reads hnts hstart hend⟩

/-- In a list with an end marker in its middle: a sum that breaks off, what it has read, and what is
read after it. -/
theorem reads_progress_sum :
    let ts : List Token := [.ident ['x'], .symbol .plus, .eof, .number 1]
    WalksWithin 12 .arith ts 0 ∧ (Nonterminal.arith.walk 12 ts 0).position = 2 ∧
    (Nonterminal.arith.walk 12 ts 0).trail
      = [.read 0, .read 1, .read 1, .read 1, .read 2, .read 2] ∧
    List.Pairwise (· ≤ ·) (0 :: (({ tokens := ts } : Cursor).actAll
      ([.arith, .statement, .factor].map .read)).map Prod.snd) := by
  intro ts
  obtain ⟨hwalk, hreads⟩ := reads_progress ts (Int.le_refl 0) (by decide)
  refine ⟨hwalk 12 .arith nofun, ?_, ?_, (hreads [.arith, .statement, .factor] (by decide)).1⟩
  · decide +kernel
  · decide +kernel

end WhileFrontend
