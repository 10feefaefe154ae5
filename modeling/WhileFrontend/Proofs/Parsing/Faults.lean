import WhileFrontend.Parsing.Cursor
import WhileFrontend.Proofs.Parsing.Breaking
import WhileFrontend.Proofs.Parsing.Exactness

/-!
# Where the parser finds fault

A token list is viable if a program can still be made of it. The parser stops at the end of the
longest viable beginning, one token before it if that ends with a name in the place of a statement,
which is refused for the token after it (`read_wholeProgram_fault`). That the tokens used are viable
is in how a phrase breaks off (`breaks_program`). That those looked at are not follows from
completeness: the parser would do on a program that starts with them as it does here, and fail
(`not_isSentence_of_agree`).
-/

namespace WhileFrontend

/-- Tokens can be found that make a program together with these. -/
def IsViable (us : List Token) : Prop :=
  ∃ vs p, IsSentence (us ++ vs) p

namespace Phrase

variable {ts : List Token} {f : ParseFault} {d n : Nat}

/-- A whole program fails as a program does, or for the token after one. -/
theorem wholeProgram_eq_fail (h : wholeProgram d ts = .fail f n) (hf : f ≠ .programTooDeep) :
    (f ≠ .tooDeep ∧ program d ts = .fail f n) ∨
      (f = .trailing ((ts.drop n).headD .eof) ∧ frontKind (ts.drop n) ≠ .eof ∧
        ∃ p, program d ts = .ok p n) := by
  rw [wholeProgram_apply] at h
  cases hp : program d ts with
  | ok p m =>
    simp only [hp] at h
    split at h
    · cases h
    · next hend =>
      obtain ⟨rfl, rfl⟩ := Outcome.fail.inj h
      exact .inr ⟨rfl, hend, p, rfl⟩
  | fail g m =>
    rw [hp] at h
    by_cases hg : g = .tooDeep
    · subst hg
      exact absurd (Outcome.fail.inj h).1.symm hf
    · have h' : Outcome.fail g m = (Outcome.fail f n : Outcome Program) := by
        cases g <;> first | exact absurd rfl hg | exact h
      obtain ⟨rfl, rfl⟩ := Outcome.fail.inj h'
      exact .inl ⟨hg, rfl⟩

/-- The fault of a whole program lies behind tokens that are viable. -/
theorem faultAt_of_wholeProgram (h : wholeProgram d ts = .fail f n) (hf : f ≠ .programTooDeep)
    (hwf : ∀ t ∈ ts, t.IsWellFormed) :
    ∃ us rest, ts = us ++ rest ∧ us.length = n ∧ FaultAt IsSentence us rest f := by
  rcases wholeProgram_eq_fail h hf with ⟨hdeep, hp⟩ | ⟨rfl, -, p, hp⟩
  · have hfaults : Faults IsSentence ts (.fail f n : Outcome Program) :=
      hp ▸ (breaks_program d).faults ts hwf
    exact hfaults hdeep
  · obtain ⟨us, rest, rfl, rfl, hus⟩ := sound_program d _ _ _ hp
    rw [List.drop_left]
    refine ⟨us, rest, rfl, rfl, rfl, fun hne => absurd rfl hne, [], p, d, ?_⟩
    show DerivesProgram d (us ++ ([] ++ [])) p
    rwa [List.append_nil, List.append_nil]

/-- No program is the same as far as the parser looked before it failed. -/
theorem not_isSentence_of_agree {us : List Token} (h : wholeProgram d ts = .fail f n)
    (hf : f ≠ .programTooDeep) (hagree : Agree (n + 1 + f.pending.length) ts us) (p : Program) :
    ¬ IsSentence us p := by
  rintro ⟨b, hp⟩
  have hd : d ≤ max d b := Nat.le_max_left d b
  have hread : (program (max d b)).Reads us p [] :=
    reads_program (hp.mono (Nat.le_max_right d b)) rfl
  rw [Reads, List.append_nil] at hread
  rcases wholeProgram_eq_fail h hf with ⟨hdeep, hfail⟩ | ⟨rfl, hend, q, hok⟩
  · have hus : program (max d b) us = program d ts :=
      persists_program hd ts us (by rwa [hfail]) (by rwa [hfail])
    rw [hread, hfail] at hus
    cases hus
  · have hus : program (max d b) us = program d ts :=
      persists_program hd ts us (by rw [hok]; trivial) (by rwa [hok])
    rw [hread, hok] at hus
    obtain ⟨-, rfl⟩ := Outcome.ok.inj hus
    -- the token behind the program is the end in the one list and not in the other
    have hget := hagree us.length (by omega)
    refine hend ?_
    rw [frontKind, List.headD_eq_head?_getD, List.head?_drop, ← List.getD_eq_getElem?_getD, hget,
      List.getD_eq_getElem?_getD, List.getElem?_eq_none (Nat.le_refl us.length)]
    rfl

end Phrase

/-- A beginning as long as the parser looked is not viable. -/
theorem not_isViable_take {ts : List Token} {f : ParseFault} {d n m : Nat}
    (h : Phrase.wholeProgram d ts = .fail f n) (hf : f ≠ .programTooDeep)
    (hm : n + 1 + f.pending.length = m) (hlen : m ≤ ts.length) : ¬ IsViable (ts.take m) := by
  rintro ⟨vs, p, hp⟩
  refine Phrase.not_isSentence_of_agree h hf (fun i hi => ?_) p hp
  have hi' : i < (ts.take m).length := by
    rw [List.length_take]
    omega
  rw [List.getD_eq_getElem?_getD, List.getD_eq_getElem?_getD, List.getElem?_append_left hi',
    List.getElem?_take_of_lt (by omega)]

section faults

variable {ts : List Token} {f : ParseFault} {d n : Nat}

/-- A fault names the token behind those used, which are viable. -/
theorem isViable_of_fault (h : Phrase.wholeProgram d ts = .fail f n) (hf : f ≠ .programTooDeep)
    (hwf : ∀ t ∈ ts, t.IsWellFormed) :
    n ≤ ts.length ∧ f.found? = some (ts.getD n .eof) ∧ IsViable (ts.take n) := by
  obtain ⟨us, rest, rfl, rfl, hat⟩ := Phrase.faultAt_of_wholeProgram h hf hwf
  obtain ⟨vs, p, hp⟩ := hat.completes
  have hget : (us ++ rest).getD us.length .eof = rest.headD .eof := by
    rw [List.getD_eq_getElem?_getD, List.getElem?_append_right (Nat.le_refl _), Nat.sub_self,
      List.headD_eq_head?_getD, List.head?_eq_getElem?]
  refine ⟨by simp, ?_, ?_⟩
  · rw [hget]
    exact hat.found
  · rw [List.take_left]
    exact ⟨f.pending ++ vs, p, hp⟩

/-- The token that a fault names ends what is viable, unless it is a name in the place of a
statement: then the next one does, and is not an assignment. -/
theorem viable_behind_fault (h : Phrase.wholeProgram d ts = .fail f n) (hf : f ≠ .programTooDeep)
    (hwf : ∀ t ∈ ts, t.IsWellFormed) {t : Token} (ht : ts[n]? = some t) :
    if f = .noStatement t ∧ t.kind = .ident then
      IsViable (ts.take (n + 1)) ∧
        ∀ u, ts[n + 1]? = some u → u.kind ≠ .symbol .assign ∧ ¬ IsViable (ts.take (n + 2))
    else ¬ IsViable (ts.take (n + 1)) := by
  obtain ⟨us, rest, rfl, rfl, hat⟩ := Phrase.faultAt_of_wholeProgram h hf hwf
  rw [List.getElem?_append_right (Nat.le_refl _), Nat.sub_self] at ht
  obtain ⟨rest, rfl⟩ : ∃ vs, rest = t :: vs := by
    cases rest with
    | nil => cases ht
    | cons u vs => exact ⟨vs, by rw [Option.some.inj ht]⟩
  split
  · next hname =>
    obtain ⟨rfl, hident⟩ := hname
    have hpending : (ParseFault.noStatement t).pending = [t] :=
      ParseFault.pending_noStatement hident
    refine ⟨?_, fun u hu => ⟨?_, ?_⟩⟩
    · obtain ⟨vs, p, hp⟩ := hat.completes
      rw [hpending, ← List.append_assoc] at hp
      rw [List.take_length_add_append]
      exact ⟨vs, p, hp⟩
    · have hsecond := hat.second (by rw [hpending]; exact List.cons_ne_nil _ _)
      rw [List.getElem?_append_right (Nat.le_add_right _ 1), Nat.add_sub_cancel_left] at hu
      rwa [List.getD_eq_getElem?_getD, hu] at hsecond
    · obtain ⟨hlt, -⟩ := List.getElem?_eq_some_iff.mp hu
      exact not_isViable_take h hf (by rw [hpending]; rfl) hlt
  · next hname =>
    have hpending : f.pending = [] := by
      rcases f.pending_eq_nil_or with hnil | ⟨u, rfl, hu⟩
      · exact hnil
      · obtain rfl : u = t := Option.some.inj hat.found
        exact absurd ⟨rfl, hu⟩ hname
    exact not_isViable_take h hf (by rw [hpending]; rfl) (by simp)

end faults

/-- A token whose integer is not too long is shown. -/
theorem Token.exists_shown {t : Token} (h : ∀ n, t.int? = some n → Text.isWritable n) :
    ∃ text, t.shown = .ok text := by
  unfold shown
  cases hv : t.value with
  | none => exact ⟨_, rfl⟩
  | some v =>
    cases v with
    | text s => exact ⟨_, rfl⟩
    | int n =>
      have hn : Text.isWritable n := h n (by rw [int?, hv])
      simp only [Payload.shown, Text.decimal, if_pos hn]
      exact ⟨_, rfl⟩

/-- A report ends with the token found, as it is shown, if it can be. -/
theorem ParseFault.report_eq {f : ParseFault} {t : Token} (hf : f.found? = some t) :
    f.report = t.shown.map (f.parts.1 ++ ·) := by
  unfold found? at hf
  unfold report
  generalize f.parts = parts at hf
  rcases parts with ⟨text, found⟩
  obtain rfl : found = some t := hf
  dsimp only
  cases t.shown <;> rfl

theorem Cursor.read_wholeProgram (budget : Nat) (ts : List Token) :
    ({ tokens := ts } : Cursor).read budget .wholeProgram =
      match Phrase.wholeProgram budget ts with
      | .ok p n => (.ok p.toNode, { tokens := ts, position := n })
      | .fail f n => (.error (.parse f), { tokens := ts, position := n }) := by
  have hahead : ({ tokens := ts } : Cursor).ahead? = some ts := rfl
  rw [Cursor.read, hahead]
  simp only [Nonterminal.phrase, Phrase.map, Cursor.moved, Int.zero_add]
  cases Phrase.wholeProgram budget ts <;> rfl

/--
**The parser stops where it has to.** When it refuses a token list, within any budget that suffices,
the tokens before its position can be completed to a program, and its report ends with the token
there. That token ends all that can be completed, or else it is a name in the place of a statement;
then the name can be completed too, and the token after it is missing or not an assignment, and
ends all that can be completed. The list itself is no program.
-/
theorem read_wholeProgram_fault (budget : Nat) (ts : List Token)
    (hwf : ∀ t ∈ ts, t.IsWellFormed)
    (hwritable : ∀ t ∈ ts, ∀ n, t.int? = some n → Text.isWritable n)
    {e : CursorFault} {c : Cursor}
    (h : ({ tokens := ts } : Cursor).read budget .wholeProgram = (.error e, c))
    (hdeep : e ≠ .parse .programTooDeep) :
    ∃ (f : ParseFault) (k : Nat) (front shown : String),
      e = .parse f ∧ f ≠ .tooDeep ∧ c = { tokens := ts, position := k } ∧ k ≤ ts.length ∧
      (ts.getD k .eof).shown = .ok shown ∧ f.report = .ok (front ++ shown) ∧
      IsViable (ts.take k) ∧ (∀ p, ¬ IsSentence ts p) ∧
      ∀ t, ts[k]? = some t →
        if f = .noStatement t ∧ t.kind = .ident then
          IsViable (ts.take (k + 1)) ∧
            ∀ u, ts[k + 1]? = some u → u.kind ≠ .symbol .assign ∧ ¬ IsViable (ts.take (k + 2))
        else ¬ IsViable (ts.take (k + 1)) := by
  rw [Cursor.read_wholeProgram] at h
  cases hw : Phrase.wholeProgram budget ts with
  | ok p n =>
    rw [hw] at h
    cases (Prod.mk.inj h).1
  | fail f k =>
    rw [hw] at h
    obtain ⟨he, rfl⟩ := Prod.mk.inj h
    obtain rfl := Except.error.inj he
    have hf : f ≠ .programTooDeep := by
      rintro rfl
      exact hdeep rfl
    obtain ⟨hk, hfound, hviable⟩ := isViable_of_fault hw hf hwf
    have hint : ∀ n, (ts.getD k .eof).int? = some n → Text.isWritable n := by
      intro n hn
      rw [List.getD_eq_getElem?_getD] at hn
      cases hget : ts[k]? with
      | none =>
        rw [hget] at hn
        cases hn
      | some t =>
        rw [hget] at hn
        exact hwritable t (List.mem_of_getElem? hget) n hn
    obtain ⟨shown, hshown⟩ := Token.exists_shown hint
    refine ⟨f, k, f.parts.1, shown, rfl, ?_, rfl, hk, hshown, ?_, hviable, ?_, ?_⟩
    · rintro rfl
      cases hfound
    · rw [ParseFault.report_eq hfound, hshown]
      rfl
    · exact Phrase.not_isSentence_of_agree hw hf (Agree.refl _ ts)
    · exact fun t ht => viable_behind_fault hw hf hwf ht

/-- Two names in a row: the first can still be assigned to, and the second ends that. -/
theorem read_wholeProgram_fault_name :
    ({ tokens := [.ident ['x'], .ident ['y']] } : Cursor).read nestingLimit .wholeProgram
        = (.error (.parse (.noStatement (.ident ['x']))),
          { tokens := [.ident ['x'], .ident ['y']], position := 0 }) ∧
      IsViable [.ident ['x']] ∧ ¬ IsViable [.ident ['x'], .ident ['y']] := by
  have hread : ({ tokens := [.ident ['x'], .ident ['y']] } : Cursor).read nestingLimit .wholeProgram
      = (.error (.parse (.noStatement (.ident ['x']))),
        { tokens := [.ident ['x'], .ident ['y']], position := 0 }) := rfl
  have hwf : ∀ t ∈ [Token.ident ['x'], Token.ident ['y']], t.IsWellFormed := by
    simp [Token.IsWellFormed, Token.ident, Token.text?]
  have hwritable : ∀ t ∈ [Token.ident ['x'], Token.ident ['y']], ∀ n, t.int? = some n →
      Text.isWritable n := by
    simp [Token.ident, Token.int?]
  obtain ⟨f, k, _, _, he, -, hc, -, -, -, -, -, hbehind⟩ :=
    read_wholeProgram_fault nestingLimit _ hwf hwritable hread (by decide)
  obtain rfl : ParseFault.noStatement (.ident ['x']) = f := CursorFault.parse.inj he
  obtain rfl : 0 = k := by
    have hposition : (0 : Int) = k := congrArg Cursor.position hc
    omega
  have hx := hbehind (.ident ['x']) rfl
  rw [if_pos ⟨rfl, rfl⟩] at hx
  exact ⟨hread, hx.1, (hx.2 (.ident ['y']) rfl).2⟩

end WhileFrontend
