import WhileFrontend.Parsing.Cursor
import WhileFrontend.Proofs.Parsing.Continued
import WhileFrontend.Proofs.Parsing.Completeness

/-!
# Every nonterminal is read to the end of its phrase

The phrase of a nonterminal other than a whole program reads `us` in front of `rest` if and only if
`us` is derived within the budget and does not go on with what follows (`reads_iff`).

* **Nothing is read that is not derived**: each phrase is sound (`sound_phrase`).
* **Nothing stops short**: what is derived is read where it ends (`reads_phrase`). The lemmas on
  completeness ask for more in front of a condition, namely that no arithmetic operator follows. A
  condition that ends with `true`, `false` or a parenthesis ends before such an operator as well, so
  here the last conjunct is followed through the derivation (`readsLast`).
* **Nothing runs on**: had the phrase been the beginning of a longer one, the parser would have read
  that one, but it does not look at more than the token that follows (`persists_phrase`).

A phrase stands at a place of a token list if it is derived there and goes on no further
(`StandsAt`); there is one place at most where a phrase that stands at a position ends.
-/

namespace WhileFrontend

namespace Phrase

variable {α β : Type} {d : Nat} {us rest : List Token}

/-! ## Values in another form -/

theorem Sound.map {p : Phrase α} {R : List Token → α → Prop} (h : p.Sound R) (g : α → β) :
    (p.map g).Sound (ImageOf R g) := by
  intro ts b n hts
  obtain ⟨a, ha, rfl⟩ := Outcome.map_eq_ok hts
  obtain ⟨us, rest, hus, hn, hR⟩ := h ts a n ha
  exact ⟨us, rest, hus, hn, a, hR, rfl⟩

theorem Reads.map {p : Phrase α} {a : α} (h : p.Reads us a rest) (g : α → β) :
    (p.map g).Reads us (g a) rest := by
  have hp : p (us ++ rest) = .ok a us.length := h
  rw [Reads, Phrase.map, hp]
  rfl

theorem Persists.map {p q : Phrase α} (h : Persists p q) (g : α → β) :
    Persists (p.map g) (q.map g) := by
  intro ts us hbudget hagree
  rw [Phrase.map, Outcome.inBudget_map] at hbudget
  rw [Phrase.map, Outcome.lookahead_map] at hagree
  exact congrArg (Outcome.map g) (h ts us hbudget hagree)

/-! ## What is read is derived -/

theorem frontKind_of_expect_bind {k : Kind} {f : Token → Phrase β} {ts : List Token} {b : β}
    {n : Nat} (h : (expect k >>= f) ts = .ok b n) : frontKind ts = k := by
  obtain ⟨t, i, _, ht, -, -⟩ := exists_of_bind_eq_ok h
  rw [expect_apply] at ht
  split at ht
  · assumption
  · cases ht

/-- A statement that is read behind a token of some kind starts with that kind. -/
theorem Sound.from {k : Kind} {f : Token → Phrase Stmt}
    (h : (expect k >>= f).Sound (DerivesStmt d)) :
    (expect k >>= f).Sound (DerivesStmtFrom d k) := by
  intro ts s n hts
  have hk := frontKind_of_expect_bind hts
  obtain ⟨us, rest, rfl, hn, hs⟩ := h ts s n hts
  obtain ⟨t, vs, rfl, -⟩ := hs.first
  exact ⟨t :: vs, rest, rfl, hn, hs, hk⟩

/-- Whatever the phrase of a nonterminal reads is a phrase of the nonterminal. -/
theorem sound_phrase (d : Nat) {nt : Nonterminal} (hnt : nt ≠ .wholeProgram) :
    (nt.phrase d).Sound (nt.Derives d) := by
  have hcond : (nested 3 cond d).Sound _ := sound_nested fun b _ => sound_cond b
  have hprogram : (nested 3 program d).Sound _ := sound_nested fun b _ => sound_program b
  cases nt with
  | wholeProgram => exact absurd rfl hnt
  | program => exact (sound_program d).map _
  | statement => exact (sound_statement d).map _
  | whileDo => exact (sound_whileOf hcond hprogram).from.map _
  | ifThenElse => exact (sound_ifOf hcond hprogram).from.map _
  | skip => exact (sound_skip d).from.map _
  | assign => exact (sound_assignOf (sound_arith d)).from.map _
  | arith => exact (sound_arith d).map _
  | summand => exact (sound_summandOf (sound_nested fun b _ => sound_arith b)).map _
  | factor => exact (sound_factorOf (sound_nested fun b _ => sound_arith b)).map _
  | cond => exact (sound_cond d).map _
  | disjunct => exact (sound_disjunctOf (sound_conjunct d)).map _
  | conjunct => exact (sound_conjunct d).map _
  | comparison => exact (sound_comparisonOf (sound_arith d)).map _

/-! ## What is read depends on no token behind the next -/

theorem persists_phrase {d d' : Nat} (hd : d ≤ d') {nt : Nonterminal}
    (hnt : nt ≠ .wholeProgram) : Persists (nt.phrase d) (nt.phrase d') := by
  have harith : Persists (nested 3 arith d) (nested 3 arith d') :=
    persists_nested hd fun _ _ _ hb => persists_arith hb
  have hcond : Persists (nested 3 cond d) (nested 3 cond d') :=
    persists_nested hd fun _ _ _ hb => persists_cond hb
  have hprogram : Persists (nested 3 program d) (nested 3 program d') :=
    persists_nested hd fun _ _ _ hb => persists_program hb
  cases nt with
  | wholeProgram => exact absurd rfl hnt
  | program => exact (persists_program hd).map _
  | statement => exact (persists_statement hd).map _
  | whileDo => exact (persists_whileOf hcond hprogram).map _
  | ifThenElse => exact (persists_ifOf hcond hprogram).map _
  | skip => exact persists_skip.map _
  | assign => exact (persists_assignOf (persists_arith hd)).map _
  | arith => exact (persists_arith hd).map _
  | summand => exact (persists_chain rfl (persists_factorOf harith)).map _
  | factor => exact (persists_factorOf harith).map _
  | cond => exact (persists_cond hd).map _
  | disjunct => exact (persists_chain rfl (persists_conjunct hd)).map _
  | conjunct => exact (persists_conjunct hd).map _
  | comparison => exact (persists_comparisonOf (persists_arith hd)).map _

/-! ## What is derived is read where it ends -/

theorem reads_summand {e : Arith} (h : DerivesArith d .product us e)
    (hrest : EndsBefore (IsArith .product) us rest) : (summand d).Reads us e rest :=
  reads_chain (readsArith h rest) (hrest.multiplicative? ⟨d, h⟩)

/-- The phrase of each sort reads what is derived in front of what it does not go on with. -/
def ReadsLast (d : Nat) (us : List Token) (c : Cond) : CondSort → Prop
  | .conjunct => ∀ rest, EndsBefore (IsCond .conjunct) us rest → (conjunct d).Reads us c rest
  | .conjunction => ∀ rest, EndsBefore (IsCond .conjunction) us rest → (disjunct d).Reads us c rest
  | .disjunction => ∀ rest, EndsBefore (IsCond .disjunction) us rest → (cond d).Reads us c rest

theorem readsLast {s : CondSort} {c : Cond} (h : DerivesCond d s us c) : ReadsLast d us c s := by
  induction h with
  | truth kind | falsity kind =>
    intro rest _
    rw [Reads, conjunct_eq, List.singleton_append, conjunctOf_cons]
    simp only [kind, List.length_singleton]
  | negation kind operand ih =>
    intro rest hrest
    have hoperand := ih rest (hrest.of_imp fun _ _ hc => ⟨_, hc.negation kind⟩)
    refine (hoperand.return Cond.negation).cons ?_
    rw [conjunct_add_one, conjunctOf_cons, kind]
  | @group d opening closing ts c openKind inside closeKind ih =>
    intro rest _
    -- the parenthesis that closes the group is no operator
    have hin : (cond d).Reads ts c (closing :: rest) := by
      refine reads_cond inside ?_
      rw [frontKind_cons, closeKind]
      exact ⟨⟨rfl, rfl⟩, rfl, rfl⟩
    refine (hin.closed closeKind).cons ?_
    rw [conjunct_add_three, conjunctOf_cons, openKind]
  | @comparison d t ts c h kind =>
    intro rest hrest
    obtain ⟨t', us, hts, hstart⟩ := h.first
    obtain ⟨rfl, rfl⟩ := List.cons.inj hts
    have hend : EndsBefore IsComparison (t :: ts) rest :=
      hrest.of_imp fun _ _ hc => ⟨_, IsCond.comparison hc kind⟩
    rw [Reads, List.cons_append, conjunct_eq_comparison hstart kind]
    exact reads_comparison h (hend.endsArith_comparison ⟨d, h⟩)
  | conjunct h ih =>
    intro rest hrest
    have hoperand := ih rest (hrest.of_imp fun _ _ hc => ⟨_, hc.conjunct⟩)
    exact reads_chain (chain_of_operand hoperand) (hrest.conjunctive? ⟨_, .conjunct h⟩)
  | @conjunction d ts us t op l r left kind right ihl ihr =>
    intro rest hrest
    have hright := ihr rest (hrest.of_imp fun ws _ hc =>
      ⟨_, by rw [List.append_assoc]; exact IsCond.conjunction ⟨d, left⟩ kind hc⟩)
    have hleft := readsCond left (t :: (us ++ rest)) (Kind.endsArith_of_conjunctive? kind)
    exact reads_chain (chain_of_chain hleft kind hright)
      (hrest.conjunctive? ⟨d, .conjunction left kind right⟩)
  | single h ih =>
    intro rest hrest
    have hoperand := ih rest (hrest.of_imp fun _ _ hc => ⟨_, hc.single⟩)
    exact reads_chain (chain_of_operand hoperand) (hrest.disjunctive? ⟨_, .single h⟩)
  | @disjunction d ts us t op l r left kind right ihl ihr =>
    intro rest hrest
    have hright := ihr rest (hrest.of_imp fun ws _ hc =>
      ⟨_, by rw [List.append_assoc]; exact IsCond.disjunction ⟨d, left⟩ kind hc⟩)
    obtain ⟨harith, hconj⟩ := Kind.endsArith_of_disjunctive? kind
    have hleft := readsCond left (t :: (us ++ rest)) harith hconj
    exact reads_chain (chain_of_chain hleft kind hright)
      (hrest.disjunctive? ⟨d, .disjunction left kind right⟩)

/-- A statement of a sort is read whatever follows, where the phrase of the sort is what statements
of its first token are read by. -/
theorem reads_of_statement {p : Phrase Stmt} {k : Kind} {s : Stmt}
    (hp : ∀ (t : Token) (ts : List Token), t.kind = k → statement d (t :: ts) = p (t :: ts))
    (h : DerivesStmtFrom d k us s) (rest : List Token) : p.Reads us s rest := by
  obtain ⟨hs, hk⟩ := h
  have hread := reads_statement hs rest
  obtain ⟨t, vs, rfl, -⟩ := hs.first
  rwa [Reads, List.cons_append, hp t _ hk] at hread

theorem reads_assign {s : Stmt} (h : DerivesStmtFrom d .ident us s) (rest : List Token) :
    (assign d).Reads us s rest := by
  obtain ⟨hs, hk⟩ := h
  cases hs with
  | assign targetKind value kind expr endKind =>
    refine reads_assignOf targetKind value kind (reads_arith expr ?_) endKind
    rw [frontKind_cons, endKind]
    exact ⟨rfl, rfl⟩
  | skip kind | whileDo kind | ifThen kind | ifElse kind =>
    rw [frontKind_cons, kind] at hk
    cases hk

/-- A phrase of a nonterminal is read where it ends. -/
theorem reads_phrase {nt : Nonterminal} (hnt : nt ≠ .wholeProgram) {n : Node}
    (h : nt.Derives d us n) (hrest : EndsBefore nt.IsPhrase us rest)
    (hwf : ∀ t ∈ rest, t.IsWellFormed) : (nt.phrase d).Reads us n rest := by
  cases nt with
  | wholeProgram => exact absurd rfl hnt
  | program =>
    obtain ⟨p, hp, rfl⟩ := h
    have hend : EndsBefore IsSentence us rest := hrest.of_imageOf
    exact (reads_program hp (hend.startsStmt ⟨d, hp⟩ hwf)).map _
  | statement =>
    obtain ⟨s, hs, rfl⟩ := h
    exact (reads_statement hs rest).map _
  | whileDo =>
    obtain ⟨s, hs, rfl⟩ := h
    refine (reads_of_statement (fun t ts ht => ?_) hs rest).map _
    rw [statement_eq, statementOf_cons, ht, whileDo]
  | ifThenElse =>
    obtain ⟨s, hs, rfl⟩ := h
    refine (reads_of_statement (fun t ts ht => ?_) hs rest).map _
    rw [statement_eq, statementOf_cons, ht, ifThenElse]
  | skip =>
    obtain ⟨s, hs, rfl⟩ := h
    refine (reads_of_statement (fun t ts ht => ?_) hs rest).map _
    rw [statement_eq, statementOf_cons, ht]
  | assign =>
    obtain ⟨s, hs, rfl⟩ := h
    exact (reads_assign hs rest).map _
  | arith =>
    obtain ⟨e, he, rfl⟩ := h
    have hend : EndsBefore (IsArith .sum) us rest := hrest.of_imageOf
    exact (reads_arith he (hend.endsArith ⟨d, he⟩)).map _
  | summand =>
    obtain ⟨e, he, rfl⟩ := h
    exact (reads_summand he hrest.of_imageOf).map _
  | factor =>
    obtain ⟨e, he, rfl⟩ := h
    exact Reads.map (readsArith he rest) _
  | cond | disjunct | conjunct =>
    obtain ⟨c, hc, rfl⟩ := h
    exact (readsLast hc rest hrest.of_imageOf).map _
  | comparison =>
    obtain ⟨c, hc, rfl⟩ := h
    have hend : EndsBefore IsComparison us rest := hrest.of_imageOf
    exact (reads_comparison hc (hend.endsArith_comparison ⟨d, hc⟩)).map _

/-- **A phrase is read exactly where it is derived and ends.** -/
theorem reads_iff {nt : Nonterminal} (hnt : nt ≠ .wholeProgram) {n : Node}
    (hwf : ∀ t ∈ rest, t.IsWellFormed) :
    (nt.phrase d).Reads us n rest ↔ nt.Derives d us n ∧ EndsBefore nt.IsPhrase us rest := by
  refine ⟨fun h => ⟨?_, ?_⟩, fun ⟨h, hrest⟩ => reads_phrase hnt h hrest hwf⟩
  · obtain ⟨vs, rest', happend, hlength, hvs⟩ := sound_phrase d hnt _ _ _ h
    obtain ⟨rfl, -⟩ := List.append_inj happend hlength.symm
    exact hvs
  · rintro t ht ⟨vs, m, b, hm⟩
    obtain ⟨rest, rfl⟩ : ∃ ws, rest = t :: ws := List.head?_eq_some_iff.mp ht
    -- the longer phrase would be read to its end, within a budget that is large enough for both
    have hlong : (nt.phrase (max d b)).Reads (us ++ [t] ++ vs) m [] :=
      reads_phrase hnt (hm.mono (Nat.le_max_right d b)) (endsBefore_nil _ _) nofun
    have hread : nt.phrase d (us ++ t :: rest) = .ok n us.length := h
    have hagree : Agree (us.length + 1) (us ++ t :: rest) (us ++ [t] ++ vs ++ []) :=
      .of_take_eq (by simp [List.take_length_add_append])
    have hshort : nt.phrase (max d b) (us ++ [t] ++ vs ++ []) = .ok n us.length :=
      (persists_phrase (Nat.le_max_left d b) hnt _ _ (by rw [hread]; trivial)
        (by rwa [hread])).trans hread
    rw [Reads, hshort] at hlong
    have hlength := (Outcome.ok.inj hlong).2
    simp at hlength

end Phrase

/-! ## Phrases in a token list -/

/-- From one position of a token list to another there stands a phrase of the nonterminal with the
given node, and no phrase starts with it and the token behind it. -/
structure Nonterminal.StandsAt (nt : Nonterminal) (ts : List Token) (p q : Nat) (n : Node) :
    Prop where
  le : p ≤ q
  le_length : q ≤ ts.length
  isPhrase : nt.IsPhrase (ts.extract p q) n
  ends : q = ts.length ∨ ¬ IsBeginning nt.IsPhrase (ts.extract p (q + 1))

section places

variable {nt : Nonterminal} {ts : List Token} {p q d : Nat} {n : Node}

theorem extract_append_drop (hpq : p ≤ q) : ts.extract p q ++ ts.drop q = ts.drop p := by
  have hdrop : (ts.drop p).drop (q - p) = ts.drop q := by
    rw [List.drop_drop, Nat.add_sub_cancel' hpq]
  rw [List.extract_eq_take_drop, ← hdrop, List.take_append_drop]

theorem length_extract (hq : q ≤ ts.length) : (ts.extract p q).length = q - p := by
  rw [List.extract_eq_take_drop, List.length_take, List.length_drop]
  omega

theorem extract_succ (hpq : p ≤ q) {t : Token} (ht : ts[q]? = some t) :
    ts.extract p (q + 1) = ts.extract p q ++ [t] := by
  rw [List.extract_eq_take_drop, List.extract_eq_take_drop, Nat.succ_sub hpq, List.take_add_one,
    List.getElem?_drop, Nat.add_sub_cancel' hpq, ht]
  rfl

/-- A phrase ends before the rest of a token list, where it does not start a longer one. -/
theorem endsBefore_drop_iff {R : List Token → Node → Prop} (hpq : p ≤ q) (hq : q ≤ ts.length) :
    EndsBefore R (ts.extract p q) (ts.drop q) ↔
      q = ts.length ∨ ¬ IsBeginning R (ts.extract p (q + 1)) := by
  rw [EndsBefore, List.head?_drop]
  constructor
  · intro h
    rcases Nat.lt_or_eq_of_le hq with hlt | rfl
    · have ht : ts[q]? = some ts[q] := List.getElem?_eq_getElem hlt
      rw [extract_succ hpq ht]
      exact .inr (h _ ht)
    · exact .inl rfl
  · rintro (rfl | h) t ht
    · rw [List.getElem?_eq_none (Nat.le_refl _)] at ht
      cases ht
    · rwa [extract_succ hpq ht] at h

/-- The cursor moves by what the phrase of the nonterminal uses of the tokens ahead. -/
theorem Cursor.read_apply (d : Nat) (nt : Nonterminal) (ts : List Token) (p : Nat) :
    ({ tokens := ts, position := p } : Cursor).read d nt =
      match nt.phrase d (ts.drop p) with
      | .ok n k => (.ok n, { tokens := ts, position := (p + k : Nat) })
      | .fail f k => (.error (.parse f), { tokens := ts, position := (p + k : Nat) }) := by
  have hahead : ({ tokens := ts, position := p } : Cursor).ahead? = some (ts.drop p) := by
    rw [ahead?, aheadFrom?, if_pos (Int.natCast_nonneg p), Int.toNat_natCast]
  rw [Cursor.read, hahead]
  rfl

theorem Cursor.read_eq_ok_iff :
    ({ tokens := ts, position := p } : Cursor).read d nt =
        (.ok n, { tokens := ts, position := q }) ↔
      ∃ k, nt.phrase d (ts.drop p) = .ok n k ∧ q = p + k := by
  rw [Cursor.read_apply]
  cases nt.phrase d (ts.drop p) with
  | ok m k =>
    simp only [Prod.mk.injEq, Except.ok.injEq, Cursor.mk.injEq, true_and, Int.natCast_inj,
      Outcome.ok.injEq]
    constructor
    · rintro ⟨rfl, rfl⟩
      exact ⟨k, ⟨rfl, rfl⟩, rfl⟩
    · rintro ⟨_, ⟨rfl, rfl⟩, rfl⟩
      exact ⟨rfl, rfl⟩
  | fail f k => simp

/-- What is read from a position on stands there, and the other way round. -/
theorem Nonterminal.exists_phrase_eq_ok_iff (hnt : nt ≠ .wholeProgram)
    (hwf : ∀ t ∈ ts, t.IsWellFormed) (hp : p ≤ ts.length) :
    (∃ k, nt.phrase d (ts.drop p) = .ok n k ∧ q = p + k) ↔
      nt.Derives d (ts.extract p q) n ∧ nt.StandsAt ts p q n := by
  have hrest : ∀ t ∈ ts.drop q, t.IsWellFormed := fun t ht => hwf t (List.mem_of_mem_drop ht)
  have hreads : p ≤ q → q ≤ ts.length → ((nt.phrase d).Reads (ts.extract p q) n (ts.drop q) ↔
      nt.phrase d (ts.drop p) = .ok n (q - p)) := fun hpq hq => by
    rw [Phrase.Reads, extract_append_drop hpq, length_extract hq]
  constructor
  · rintro ⟨k, hk, rfl⟩
    have hpq : p ≤ p + k := Nat.le_add_right p k
    have hq : p + k ≤ ts.length := by
      obtain ⟨us, rest, hus, rfl, -⟩ := Phrase.sound_phrase d hnt _ _ _ hk
      have hlength := congrArg List.length hus
      rw [List.length_drop, List.length_append] at hlength
      omega
    have hread := (hreads hpq hq).mpr (by rwa [Nat.add_sub_cancel_left])
    obtain ⟨hderives, hends⟩ := (Phrase.reads_iff hnt hrest).mp hread
    exact ⟨hderives, hpq, hq, ⟨d, hderives⟩, (endsBefore_drop_iff hpq hq).mp hends⟩
  · rintro ⟨hderives, hpq, hq, -, hends⟩
    have hread := (Phrase.reads_iff hnt hrest).mpr
      ⟨hderives, (endsBefore_drop_iff hpq hq).mpr hends⟩
    exact ⟨q - p, (hreads hpq hq).mp hread, by omega⟩

/-- Two phrases that stand at a position are the same. -/
theorem Nonterminal.StandsAt.unique (hnt : nt ≠ .wholeProgram) (hwf : ∀ t ∈ ts, t.IsWellFormed)
    (hp : p ≤ ts.length) {r : Nat} {m : Node} (h : nt.StandsAt ts p q n)
    (h' : nt.StandsAt ts p r m) : q = r ∧ n = m := by
  obtain ⟨b, hn⟩ := h.isPhrase
  obtain ⟨b', hm⟩ := h'.isPhrase
  obtain ⟨k, hk, rfl⟩ := (exists_phrase_eq_ok_iff hnt hwf hp).mpr
    ⟨hn.mono (Nat.le_max_left b b'), h⟩
  obtain ⟨k', hk', rfl⟩ := (exists_phrase_eq_ok_iff hnt hwf hp).mpr
    ⟨hm.mono (Nat.le_max_right b b'), h'⟩
  rw [hk] at hk'
  obtain ⟨rfl, rfl⟩ := Outcome.ok.inj hk'
  exact ⟨rfl, rfl⟩

/--
**Every nonterminal is read to the end of its phrase, and no further.** From a position of a token
list whose numbers and names carry their values, a node and the position behind it are read, within
a budget of nesting, if and only if they are those of a phrase that stands there and is derived
within the budget. Where the budget does not run out, it counts for nothing. And there is one place
at most where a phrase that stands at a position ends.
-/
theorem read_eq_ok_iff_standsAt (hnt : nt ≠ .wholeProgram) (hwf : ∀ t ∈ ts, t.IsWellFormed)
    (hp : p ≤ ts.length) :
    (∀ (d : Nat) (n : Node) (q : Nat),
      ({ tokens := ts, position := p } : Cursor).read d nt
          = (.ok n, { tokens := ts, position := q }) ↔
        nt.Derives d (ts.extract p q) n ∧ nt.StandsAt ts p q n) ∧
    (∀ d : Nat, (({ tokens := ts, position := p } : Cursor).read d nt).1
        ≠ .error (.parse .tooDeep) →
      ∀ (n : Node) (q : Nat),
        ({ tokens := ts, position := p } : Cursor).read d nt
            = (.ok n, { tokens := ts, position := q }) ↔ nt.StandsAt ts p q n) ∧
    (∀ (n m : Node) (q r : Nat), nt.StandsAt ts p q n → nt.StandsAt ts p r m → q = r ∧ n = m) := by
  refine ⟨fun d n q => ?_, fun d hbudget n q => ?_, fun n m q r h h' => h.unique hnt hwf hp h'⟩
  · rw [Cursor.read_eq_ok_iff]
    exact Nonterminal.exists_phrase_eq_ok_iff hnt hwf hp
  · rw [Cursor.read_eq_ok_iff]
    refine ⟨fun h => ((Nonterminal.exists_phrase_eq_ok_iff hnt hwf hp).mp h).2, fun h => ?_⟩
    obtain ⟨b, hn⟩ := h.isPhrase
    obtain ⟨k, hk, rfl⟩ := (Nonterminal.exists_phrase_eq_ok_iff hnt hwf hp).mpr
      ⟨hn.mono (Nat.le_max_right d b), h⟩
    refine ⟨k, ?_, rfl⟩
    -- what the budget suffices for is read alike within the larger one
    rw [← hk]
    refine (Phrase.persists_phrase (Nat.le_max_left d b) hnt _ _ ?_ (Agree.refl _ _)).symm
    rw [Cursor.read_apply] at hbudget
    cases hread : nt.phrase d (ts.drop p) with
    | ok m j => trivial
    | fail f j =>
      rw [hread] at hbudget
      rintro rfl
      exact hbudget rfl

end places

/-- Behind `not`, a condition in parentheses stands up to an arithmetic operator, which no conjunct
that starts with it goes on with. -/
theorem read_eq_ok_iff_standsAt_parenthesis :
    let ts : List Token := [.keyword .notKw, .symbol .lparen, .keyword .trueKw, .symbol .rparen,
      .symbol .plus, .number 1]
    Nonterminal.conjunct ≠ .wholeProgram ∧ (∀ t ∈ ts, t.IsWellFormed) ∧ 1 ≤ ts.length ∧
      ({ tokens := ts, position := (1 : Nat) } : Cursor).read nestingLimit .conjunct
        = (.ok (.truth true), { tokens := ts, position := (4 : Nat) }) ∧
      Nonterminal.conjunct.StandsAt ts 1 4 (.truth true) ∧
      ∀ (n : Node) (q : Nat), Nonterminal.conjunct.StandsAt ts 1 q n → 4 = q ∧ .truth true = n := by
  intro ts
  have hne : Nonterminal.conjunct ≠ .wholeProgram := by decide
  have hwf : ∀ t ∈ ts, t.IsWellFormed := by
    simp [ts, Token.IsWellFormed, Token.keyword, Token.symbol, Token.number, Token.int?]
  have hp : 1 ≤ ts.length := by decide
  have hphrase : Nonterminal.conjunct.phrase nestingLimit (ts.drop 1) = .ok (.truth true) 3 := by
    decide +kernel
  have hread := Cursor.read_eq_ok_iff.mpr ⟨3, hphrase, rfl⟩
  obtain ⟨hiff, -, hunique⟩ := read_eq_ok_iff_standsAt hne hwf hp
  have hstands := ((hiff nestingLimit (.truth true) 4).mp hread).2
  exact ⟨hne, hwf, hp, hread, hstands, fun n q h => hunique _ _ _ _ hstands h⟩

end WhileFrontend
