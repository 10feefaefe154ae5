import WhileFrontend.Proofs.Token.Scanning

/-!
# Lexing character by character

The steps of a scanner are given by what lies ahead of it as a whole. Here they are loops that look
at one character, decide, take it and look again, with no other means than `peek`, `next` and
`atEnd`. Wherever a scanner stands, before the start and past the end included, each loop gives the
same answer and leaves the same position (`Stepwise.act_eq`).

## Mechanism

Every loop looks at the character at the position before it looks further or takes anything. That
character is the first of what lies ahead (`Scanner.peek_zero`), so before the start each loop stops
at once, although from there `peek` can see characters further on.

## Termination

A class of characters is taken for as long as the position is before the end, so the distance from
the position to the end falls.
-/

namespace WhileFrontend

variable {α β : Type}

namespace Stepwise

/-! ## The loops -/

/-- Goes on after an answer; a fault stops. -/
def andThen (r : Except ScanFault α × Scanner) (f : α → Scanner → Except ScanFault β × Scanner) :
    Except ScanFault β × Scanner :=
  match r with
  | (.ok a, s) => f a s
  | (.error e, s) => (.error e, s)

/-- Takes characters for as long as the one ahead is of the class, adding each to what the ones
before it have come to. -/
def takeClass (p : Char → Bool) (f : α → Char → α) (a : α) (s : Scanner) :
    Except ScanFault α × Scanner :=
  if _hlook : !s.atEnd && (s.peek 0).any p then
    match _hnext : s.next with
    | (.ok c, s') => takeClass p f (f a c) s'
    | (.error e, s') => (.error e, s')
  else (.ok a, s)
termination_by (s.length - s.position).toNat
decreasing_by
  have hlt : s.position < s.length := by
    simp only [Bool.and_eq_true, Bool.not_eq_true', Scanner.atEnd, decide_eq_false_iff_not,
      Int.not_le] at _hlook
    exact _hlook.1
  rw [Scanner.eq_moved_of_next _hnext]
  show (s.length - (s.position + 1)).toNat < (s.length - s.position).toNat
  omega

/-- Takes a number of characters. -/
def takeMany (s : Scanner) : Nat → Except ScanFault Unit × Scanner
  | 0 => (.ok (), s)
  | n + 1 => andThen s.next fun _ s => takeMany s n

/-- Moves past the blanks ahead. -/
def skipBlanks (s : Scanner) : Except ScanFault Unit × Scanner :=
  takeClass Text.isBlank (fun u _ => u) () s

/-- Looks at up to `n` more characters behind the candidate, and keeps the last candidate that is a
symbol. -/
def longestSymbol (s : Scanner) (best : Option Symbol) (candidate : List Char) : Nat → Option Symbol
  | 0 => best
  | n + 1 =>
    match s.peek candidate.length with
    | none => best
    | some c =>
      longestSymbol s ((Symbol.ofSpelling? (candidate ++ [c])).or best) (candidate ++ [c]) n

/-- Takes the longest symbol ahead, if there is one. -/
def nextSymbol (s : Scanner) : Except ScanFault (Option Token) × Scanner :=
  match longestSymbol s none [] Symbol.maxLength with
  | none => (.ok none, s)
  | some sym => andThen (takeMany s sym.spelling.length) fun _ s => (.ok (some (.symbol sym)), s)

/-- Takes the token at the position, which at the end is the end marker. -/
def afterBlanks (s : Scanner) : Except ScanFault Token × Scanner :=
  if s.atEnd then (.ok .eof, s)
  else
    andThen (nextSymbol s) fun sym s =>
      match sym with
      | some t => (.ok t, s)
      | none =>
        if (s.peek 0).any Text.isDigit then
          andThen (takeClass Text.isDigit (fun n c => n * 10 + (Text.digitValue? c).getD 0) 0 s)
            fun n s => (.ok (.number n), s)
        else if (s.peek 0).any Text.isLetter then
          andThen (takeClass Lexer.isNameChar (fun cs c => cs ++ [c]) [] s)
            fun cs s => (.ok (Lexer.wordToken cs), s)
        else andThen s.next fun c s => (.ok (.unknown c), s)

/-- Takes the next token behind the blanks. -/
def nextToken (s : Scanner) : Except ScanFault Token × Scanner :=
  andThen (skipBlanks s) fun _ s => afterBlanks s

end Stepwise

/-! ## What is looked at -/

namespace Scanner

variable {s : Scanner}

/-- The character at the position is the first of what lies ahead. -/
theorem peek_zero (s : Scanner) : s.peek 0 = s.ahead.head? := by
  rw [peek, ahead, Int.add_zero]
  by_cases h : 0 ≤ s.position
  · rw [if_pos h, if_pos h, List.head?_drop]
  · rw [if_neg h, if_neg h, List.head?_nil]

theorem nonneg_of_ahead {c : Char} {rest : List Char} (h : s.ahead = c :: rest) :
    0 ≤ s.position := by
  by_cases hpos : 0 ≤ s.position
  · exact hpos
  · rw [ahead, if_neg hpos] at h
    cases h

theorem peek_natCast (h : 0 ≤ s.position) (n : Nat) : s.peek n = s.ahead[n]? := by
  have hsum : (s.position + n).toNat = s.position.toNat + n := by omega
  rw [peek, if_pos (by omega), hsum, ahead_of_nonneg h, List.getElem?_drop]

theorem atEnd_of_ahead {c : Char} {rest : List Char} (h : s.ahead = c :: rest) :
    s.atEnd = false := by
  rw [atEnd, decide_eq_false_iff_not, Int.not_le]
  exact position_lt_length h

/-- A character that lies ahead can be taken, and leaves the others ahead. -/
theorem next_of_ahead {c : Char} {rest : List Char} (h : s.ahead = c :: rest) :
    s.next = (.ok c, s.moved 1) ∧ (s.moved 1).ahead = rest := by
  have hpos := nonneg_of_ahead h
  have hcurrent : s.current = .ok (some c) := by
    rw [current, if_pos hpos, ← List.head?_drop, ← ahead_of_nonneg hpos, h]
    rfl
  have hmoved : (1 : Int) = s.ahead.length - rest.length := by
    rw [h, List.length_cons]
    omega
  refine ⟨by rw [next, hcurrent], ?_⟩
  rw [hmoved]
  exact ahead_moved hpos (h ▸ List.suffix_cons c rest)

/-- Where no character lies ahead and the end is not reached, the position is before the start. -/
theorem neg_of_ahead_nil (h : s.ahead = []) (hend : s.atEnd = false) : s.position < 0 := by
  rw [atEnd, decide_eq_false_iff_not, Int.not_le] at hend
  by_contra hneg
  have hsum := position_add_length_ahead (Int.not_lt.mp hneg)
  rw [h, List.length_nil] at hsum
  omega

theorem ahead_of_neg (h : s.position < 0) : s.ahead = [] :=
  if_neg (Int.not_le.mpr h)

theorem moved_moved (s : Scanner) (m n : Int) : (s.moved m).moved n = s.moved (m + n) := by
  rw [moved, moved, moved, Int.add_assoc]

theorem moved_zero (s : Scanner) : s.moved 0 = s := by
  rw [moved, Int.add_zero]

/-- Before the start there are no blanks to move past. -/
theorem skipBlanks_of_neg (h : s.position < 0) : s.skipBlanks = s := by
  rw [skipBlanks, ahead_of_neg h]
  exact moved_zero s

end Scanner

namespace Stepwise

open Scanner

/-! ## What the loops come to -/

/-- Characters of a class are taken up to the first that is not of it. -/
theorem takeClass_eq (p : Char → Bool) (f : α → Char → α) (a : α) (s : Scanner) :
    takeClass p f a s
      = (.ok ((s.ahead.takeWhile p).foldl f a), s.moved (s.ahead.takeWhile p).length) := by
  induction hahead : s.ahead generalizing a s with
  | nil =>
    have hlook : ¬ (!s.atEnd && (s.peek 0).any p) = true := by
      rw [peek_zero, hahead, List.head?_nil, Option.any_none, Bool.and_false]
      exact Bool.false_ne_true
    rw [takeClass, dif_neg hlook]
    exact congrArg (Prod.mk _) (moved_zero s).symm
  | cons c rest ih =>
    have hpeek : (s.peek 0).any p = p c := by
      rw [peek_zero, hahead, List.head?_cons, Option.any_some]
    by_cases hc : p c
    · obtain ⟨hnext, hrest⟩ := next_of_ahead hahead
      have hlook : (!s.atEnd && (s.peek 0).any p) = true := by
        rw [atEnd_of_ahead hahead, hpeek, hc]
        rfl
      have hstep : takeClass p f a s = takeClass p f (f a c) (s.moved 1) := by
        rw [takeClass, dif_pos hlook]
        split
        · next hok =>
          obtain ⟨hchar, rfl⟩ := Prod.mk.inj (hnext.symm.trans hok)
          rw [Except.ok.inj hchar]
        · next herror => cases hnext.symm.trans herror
      rw [hstep, ih (f a c) (s.moved 1) hrest, moved_moved, List.takeWhile_cons_of_pos hc,
        List.foldl_cons, List.length_cons, Int.natCast_add, Int.add_comm]
      rfl
    · have hlook : ¬ (!s.atEnd && (s.peek 0).any p) = true := by
        rw [hpeek, Bool.and_eq_true]
        exact fun h => hc h.2
      rw [takeClass, dif_neg hlook, List.takeWhile_cons_of_neg hc]
      exact congrArg (Prod.mk _) (moved_zero s).symm

theorem takeMany_eq {s : Scanner} {n : Nat} (h : n ≤ s.ahead.length) :
    takeMany s n = (.ok (), s.moved n) := by
  induction n generalizing s with
  | zero => rw [takeMany, Int.natCast_zero, moved_zero]
  | succ n ih =>
    obtain ⟨c, rest, hahead⟩ : ∃ c rest, s.ahead = c :: rest :=
      List.exists_cons_of_length_pos (Nat.lt_of_lt_of_le n.succ_pos h)
    obtain ⟨hnext, hrest⟩ := next_of_ahead hahead
    have hle : n ≤ (s.moved 1).ahead.length := by
      rw [hahead, List.length_cons] at h
      rw [hrest]
      exact Nat.le_of_succ_le_succ h
    rw [takeMany, hnext, andThen, ih hle, moved_moved, Int.natCast_succ, Int.add_comm]

theorem skipBlanks_eq (s : Scanner) : skipBlanks s = (.ok (), s.skipBlanks) := by
  have hlength : ((s.ahead.takeWhile Text.isBlank).length : Int)
      = s.ahead.length - (Lexer.skipBlanks s.ahead).length := by
    have hsplit := congrArg List.length
      (List.takeWhile_append_dropWhile (p := Text.isBlank) (l := s.ahead))
    rw [List.length_append] at hsplit
    rw [Lexer.skipBlanks]
    omega
  rw [skipBlanks, takeClass_eq, hlength]
  rfl

/-- Looking ahead character by character finds the longest symbol. -/
theorem longestSymbol_eq (s : Scanner) :
    longestSymbol s none [] Symbol.maxLength = (Lexer.symbol? s.ahead).map Prod.fst := by
  have hlength : Symbol.maxLength = 2 := by decide
  have hnone : Symbol.ofSpelling? [] = none := by decide
  have hfirst : s.peek (([] : List Char).length : Nat) = s.ahead.head? := peek_zero s
  rw [hlength, longestSymbol, hfirst]
  cases hahead : s.ahead with
  | nil => simp only [List.head?_nil, Lexer.symbol?, List.take_nil, hnone, Option.map_none]
  | cons c rest =>
    have hsecond : s.peek (([c] : List Char).length : Nat) = rest.head? := by
      rw [peek_natCast (nonneg_of_ahead hahead), hahead, List.head?_eq_getElem?]
      rfl
    simp only [List.head?_cons, List.nil_append, Option.or_none]
    rw [longestSymbol, hsecond, Lexer.symbol?]
    cases rest with
    | nil => cases h : Symbol.ofSpelling? [c] <;> simp [h]
    | cons d rest =>
      cases htwo : Symbol.ofSpelling? [c, d] <;> cases hone : Symbol.ofSpelling? [c] <;>
        simp [longestSymbol, htwo, hone]

theorem nextSymbol_eq (s : Scanner) : nextSymbol s = (.ok s.nextSymbol.1, s.nextSymbol.2) := by
  rw [nextSymbol, longestSymbol_eq, Scanner.nextSymbol]
  cases hsym : Lexer.symbol? s.ahead with
  | none => rfl
  | some found =>
    obtain ⟨sym, rest⟩ := found
    have hle : sym.spelling.length ≤ s.ahead.length := by
      rw [(Lexer.symbol?_eq_some hsym).1, List.length_append]
      exact Nat.le_add_right _ _
    simp only [Option.map_some, takeMany_eq hle, andThen]

/-- What the next token is made of where a character is left ahead. -/
theorem afterBlanks_of_ahead {s : Scanner} {c : Char} {rest : List Char} (h : s.ahead = c :: rest) :
    afterBlanks s = (.ok (Lexer.next c rest).1,
      s.moved ((rest.length : Int) + 1 - (Lexer.next c rest).2.length)) := by
  have hlook (p : Char → Bool) : (s.peek 0).any p = p c := by
    rw [peek_zero, h, List.head?_cons, Option.any_some]
  -- what a class of characters takes is as long as what it leaves is shorter
  have htaken (p : Char → Bool) (hc : p c = true) :
      (((c :: rest).takeWhile p).length : Int)
        = rest.length + 1 - (rest.dropWhile p).length := by
    have hsplit := congrArg List.length (List.takeWhile_append_dropWhile (p := p) (l := rest))
    rw [List.length_append] at hsplit
    rw [List.takeWhile_cons_of_pos hc, List.length_cons]
    omega
  rw [afterBlanks, atEnd_of_ahead h, if_neg Bool.false_ne_true, nextSymbol_eq, Scanner.nextSymbol,
    h, Lexer.next]
  cases hsym : Lexer.symbol? (c :: rest) with
  | some found =>
    obtain ⟨sym, rest'⟩ := found
    have hlength := congrArg List.length (Lexer.symbol?_eq_some hsym).1
    rw [List.length_cons, List.length_append] at hlength
    have hmoved : (sym.spelling.length : Int) = rest.length + 1 - rest'.length := by omega
    simp only [andThen, hmoved]
  | none =>
    simp only [andThen, hlook]
    by_cases hdigit : Text.isDigit c = true
    · rw [if_pos hdigit, if_pos hdigit, takeClass_eq, h, htaken _ hdigit,
        List.takeWhile_cons_of_pos hdigit]
      rfl
    · by_cases hletter : Text.isLetter c = true
      · have hname : Lexer.isNameChar c = true := by
          rw [Lexer.isNameChar, hletter, Bool.true_or, Bool.true_or]
        rw [if_neg hdigit, if_neg hdigit, if_pos hletter, if_pos hletter, takeClass_eq, h,
          htaken _ hname, List.takeWhile_cons_of_pos hname, List.foldl_append_eq_append]
        simp only [List.nil_append, ← List.flatMap_def, List.flatMap_singleton']
      · obtain ⟨hnext, -⟩ := next_of_ahead h
        have hone : (rest.length : Int) + 1 - rest.length = 1 := by omega
        rw [if_neg hdigit, if_neg hdigit, if_neg hletter, if_neg hletter, hnext, hone]

/-- **The next token is the one that the loops take**, wherever the scanner stands. -/
theorem nextToken_eq (s : Scanner) : nextToken s = s.nextToken := by
  rw [nextToken, skipBlanks_eq, andThen, Scanner.nextToken]
  cases hahead : s.skipBlanks.ahead with
  | cons c rest => exact afterBlanks_of_ahead hahead
  | nil =>
    cases hend : s.skipBlanks.atEnd with
    | true => simp only [afterBlanks, hend, if_true]
    | false =>
      have hneg : s.position < 0 :=
        Int.lt_of_le_of_lt (position_le_skipBlanks s) (neg_of_ahead_nil hahead hend)
      have hnothing := ahead_of_neg hneg
      have hskip := skipBlanks_of_neg hneg
      rw [hskip] at hend
      have hsymbol : nextSymbol s = (.ok none, s) := by
        rw [nextSymbol_eq, Scanner.nextSymbol, hnothing]
        rfl
      rw [hskip, afterBlanks, hend, hsymbol]
      simp only [andThen, peek_zero, hnothing, List.head?_nil, Option.any_none, Bool.false_eq_true,
        if_false]
      rcases s.next with ⟨_ | _, s'⟩ <;> rfl

/-! ## What is asked for -/

/-- Takes tokens one by one up to the end marker, and leaves that out. -/
def tokens (s : Scanner) : Except ScanFault (List Token) × Scanner :=
  match _hnext : nextToken s with
  | (.error e, s') => (.error e, s')
  | (.ok t, s') =>
    if _ht : t.kind = .eof then (.ok [], s')
    else andThen (tokens s') fun ts s => (.ok (t :: ts), s)
termination_by (s.length - s.position).toNat
decreasing_by
  rw [nextToken_eq] at _hnext
  have := lt_position_nextToken _hnext _ht
  omega

theorem tokens_eq (s : Scanner) : tokens s = s.tokens := by
  fun_induction Scanner.tokens s with
  | case1 s e s' hnext =>
    rw [← nextToken_eq] at hnext
    rw [tokens]
    split
    · next hsame =>
      obtain ⟨herror, rfl⟩ := Prod.mk.inj (hnext.symm.trans hsame)
      rw [Except.error.inj herror]
    · next hsame => cases hnext.symm.trans hsame
  | case2 s t s' hnext ht =>
    rw [← nextToken_eq] at hnext
    rw [tokens]
    split
    · next hsame => cases hnext.symm.trans hsame
    · next hsame =>
      obtain ⟨htoken, rfl⟩ := Prod.mk.inj (hnext.symm.trans hsame)
      rw [dif_pos (Except.ok.inj htoken ▸ ht)]
  | case3 s t s' hnext ht ih =>
    rw [← nextToken_eq] at hnext
    rw [tokens]
    split
    · next hsame => cases hnext.symm.trans hsame
    · next hsame =>
      obtain ⟨htoken, rfl⟩ := Prod.mk.inj (hnext.symm.trans hsame)
      obtain rfl := Except.ok.inj htoken
      rw [dif_neg ht, ih]
      rcases s'.tokens with ⟨_ | _, s''⟩ <;> rfl

/-- Does as asked, character by character. -/
def act (s : Scanner) : Action → Except ScanFault Answer × Scanner
  | .skipBlanks => andThen (skipBlanks s) fun _ s => (.ok .moved, s)
  | .nextSymbol => andThen (nextSymbol s) fun t s => (.ok (.token t), s)
  | .nextToken => andThen (nextToken s) fun t s => (.ok (.token (some t)), s)
  | .tokens => andThen (tokens s) fun ts s => (.ok (.tokens ts), s)
  | a => s.act a

/-- **Character by character a scanner does the same**, wherever it stands and whatever is asked. -/
theorem act_eq (s : Scanner) (a : Action) : act s a = s.act a := by
  cases a with
  | skipBlanks => rw [act, skipBlanks_eq, andThen, Scanner.act]
  | nextSymbol =>
    rw [act, nextSymbol_eq, andThen, Scanner.act]
    rfl
  | nextToken =>
    rw [act, nextToken_eq, Scanner.act]
    rcases s.nextToken with ⟨_ | _, s'⟩ <;> rfl
  | tokens =>
    rw [act, tokens_eq, Scanner.act]
    rcases s.tokens with ⟨_ | _, s'⟩ <;> rfl
  | next | peek _ | current | atEnd | seek _ => rfl

end Stepwise

end WhileFrontend
