import WhileFrontend.Proofs.Token.Stepwise

/-!
# Scanning from any position

Where a scanner starts decides what it takes:

* At or after the start it takes the tokens of what lies ahead, which is nothing past the end.
* Before the start, no further from it than the text is long, each character counted from the end
  is a token by itself, blank or not, until the position reaches the start. From there on it takes
  the tokens of the whole text.
* Further before the start it takes nothing and stays where it is.
-/

namespace WhileFrontend

namespace Scanner

variable {s : Scanner}

/-- A token that is taken stands in front of those that are taken after it. -/
theorem tokens_of_nextToken {s' : Scanner} {t : Token} (h : s.nextToken = (.ok t, s'))
    (ht : t.kind ≠ .eof) : s.tokens = s'.tokens.map (·.map (t :: ·)) id := by
  rw [tokens]
  split
  · next hsame => cases h.symm.trans hsame
  · next hsame =>
    obtain ⟨htoken, rfl⟩ := Prod.mk.inj (h.symm.trans hsame)
    obtain rfl := Except.ok.inj htoken
    rw [dif_neg ht]

theorem tokens_of_fault {s' : Scanner} {f : ScanFault} (h : s.nextToken = (.error f, s')) :
    s.tokens = (.error f, s') := by
  rw [tokens]
  split
  · next hsame =>
    obtain ⟨hfault, rfl⟩ := Prod.mk.inj (h.symm.trans hsame)
    rw [Except.error.inj hfault]
  · next hsame => cases h.symm.trans hsame

/-- Before the start the next token is the next character. -/
theorem nextToken_of_neg (h : s.position < 0) :
    s.nextToken = (s.next.1.map .unknown, s.next.2) := by
  have hend : s.atEnd = false := by
    rw [atEnd, decide_eq_false_iff_not, length]
    omega
  rw [nextToken, skipBlanks_of_neg h, ahead_of_neg h]
  simp only [hend, Bool.false_eq_true, if_false]
  rcases s.next with ⟨_ | _, s'⟩ <;> rfl

/-- From too far before the start no character can be taken. -/
theorem next_of_lt (h : s.position < -s.length) : s.next = (.error .outOfRange, s) := by
  have hneg : ¬ 0 ≤ s.position := by
    rw [length] at h
    omega
  rw [next, current, if_neg hneg, if_neg (Int.not_le.mpr h)]

/-- A position before the start counts from the end. -/
theorem next_before_start (source : List Char) {n : Nat} (h : n < source.length) :
    ∃ c, source.drop (source.length - (n + 1)) = c :: source.drop (source.length - n) ∧
      ({ source, position := -(n + 1 : Nat) } : Scanner).next
        = (.ok c, { source, position := -n }) := by
  have hlt : source.length - (n + 1) < source.length := by omega
  have hsucc : source.length - (n + 1) + 1 = source.length - n := by omega
  refine ⟨source[source.length - (n + 1)], ?_, ?_⟩
  · rw [List.drop_eq_getElem_cons hlt, hsucc]
  · have hneg : ¬ (0 : Int) ≤ -(n + 1 : Nat) := by omega
    have hge : -(source.length : Int) ≤ -(n + 1 : Nat) := by omega
    have hindex : ((source.length : Int) + -(n + 1 : Nat)).toNat = source.length - (n + 1) := by
      omega
    have hcurrent : ({ source, position := -(n + 1 : Nat) } : Scanner).current
        = .ok (some source[source.length - (n + 1)]) := by
      rw [current, if_neg hneg, length, if_pos hge, hindex, List.getElem?_eq_getElem hlt]
    have hposition : (-(n + 1 : Nat) + 1 : Int) = -n := by omega
    rw [next, hcurrent]
    simp only [moved, hposition]

/-- From before the start each character up to the end is taken by itself, and then the whole text
is scanned. -/
theorem tokens_before_start (source : List Char) {n : Nat} (h : n ≤ source.length) :
    ({ source, position := -n } : Scanner).tokens
      = (.ok ((source.drop (source.length - n)).map .unknown ++ Lexer.tokens source),
        { source, position := source.length }) := by
  induction n with
  | zero =>
    have hstart : (0 : Int) ≤ ({ source, position := -(0 : Nat) } : Scanner).position :=
      Int.le_refl 0
    rw [tokens_eq hstart, Nat.sub_zero, List.drop_length, List.map_nil, List.nil_append]
    show (_, ({ source, position := max (0 : Int) source.length } : Scanner)) = _
    rw [Int.max_eq_right (Int.natCast_nonneg source.length)]
    rfl
  | succ n ih =>
    obtain ⟨c, hdrop, hnext⟩ := next_before_start source h
    have hneg : ({ source, position := -(n + 1 : Nat) } : Scanner).position < 0 := by
      show -((n + 1 : Nat) : Int) < 0
      omega
    have htoken := nextToken_of_neg hneg
    rw [hnext] at htoken
    rw [tokens_of_nextToken htoken Kind.noConfusion, ih (Nat.le_of_succ_le h), hdrop]
    rfl

end Scanner

/--
**Scanning from any position.** From a position at or after the start the tokens are those of the
text that lies ahead. From one before the start, no further than the text is long, they are one for
each character up to the end, whatever the characters are, and then those of the whole text. From
one that lies further before the start no token is taken and the position stays. Taking the tokens
character by character comes to the same.
-/
theorem Scanner.tokens_from (source : String) (p : Int) :
    let s : Scanner := { source := source.toList, position := p }
    (∀ a, Stepwise.act s a = s.act a) ∧ Stepwise.tokens s = s.tokens ∧
    (0 ≤ p → s.tokens = (.ok (tokenize (String.ofList (source.toList.drop p.toNat))),
      { s with position := max p s.length })) ∧
    (-s.length ≤ p → p < 0 →
      s.tokens = (.ok ((source.toList.drop (s.length + p).toNat).map .unknown ++ tokenize source),
        { s with position := s.length })) ∧
    (p < -s.length → s.nextToken = (.error .outOfRange, s) ∧
      s.tokens = (.error .outOfRange, s)) := by
  intro s
  have hlength : s.length = source.toList.length := rfl
  refine ⟨Stepwise.act_eq s, Stepwise.tokens_eq s, fun hp => ?_, fun hlow hneg => ?_,
    fun hlow => ?_⟩
  · rw [tokens_eq hp, ahead_of_nonneg hp, tokenize, String.toList_ofList]
  · obtain ⟨n, rfl⟩ : ∃ n : Nat, p = -n := ⟨(-p).toNat, by omega⟩
    have hle : n ≤ source.toList.length := by omega
    have hindex : (s.length + -n).toNat = source.toList.length - n := by omega
    rw [hindex]
    exact tokens_before_start source.toList hle
  · have hneg : s.position < 0 := by
      show p < 0
      omega
    have hfault : s.nextToken = (.error .outOfRange, s) := by
      rw [nextToken_of_neg hneg, next_of_lt hlow]
      rfl
    exact ⟨hfault, tokens_of_fault hfault⟩

/-- Two blanks and a sum, from its middle, from behind its end and from before its start. -/
theorem Scanner.tokens_from_sum :
    ({ source := "  a+b".toList, position := 3 } : Scanner).tokens.1
      = .ok (tokenize (String.ofList ['+', 'b'])) ∧
    ({ source := "  a+b".toList, position := -4 } : Scanner).tokens.1
      = .ok ([' ', 'a', '+', 'b'].map .unknown ++ tokenize "  a+b") ∧
    ({ source := "  a+b".toList, position := -6 } : Scanner).tokens.1 = .error .outOfRange := by
  obtain ⟨-, -, hafter, -, -⟩ := Scanner.tokens_from "  a+b" 3
  obtain ⟨-, -, -, hbefore, -⟩ := Scanner.tokens_from "  a+b" (-4)
  obtain ⟨-, -, -, -, hfar⟩ := Scanner.tokens_from "  a+b" (-6)
  refine ⟨?_, ?_, ?_⟩
  · rw [hafter (by decide)]
    rfl
  · rw [hbefore (by decide) (by decide)]
    rfl
  · rw [(hfar (by decide)).2]

end WhileFrontend
