import WhileFrontend.Parsing.Phrase

/-!
# What phrases read

A phrase that succeeds has read a front part of its tokens. Two statements about a phrase are
carried from its parts to the whole:

* `Sound p R` — whatever `p` reads is related by `R` to the value that it gives
* `Reads p us a rest` — in front of `rest`, `p` reads exactly `us` and gives `a`

For chains and sequences the second is not inductive as it stands, because a loop goes on for as
long as the next token lets it. What is inductive is that reading a chain's beginning leaves the
loop in the state in which it goes on (`chain_of_operand`, `chainFrom_cons`); the loop ends where
the next token is no operator (`chainFrom_stop`).
-/

namespace WhileFrontend

/-- The kind of the first token, or the end where there is none. -/
def frontKind (ts : List Token) : Kind :=
  (ts.headD .eof).kind

@[simp] theorem frontKind_nil : frontKind [] = .eof := rfl

@[simp] theorem frontKind_cons (t : Token) (ts : List Token) : frontKind (t :: ts) = t.kind := rfl

namespace Outcome

variable {α β : Type}

theorem after_eq_ok {o : Outcome α} {a : α} {m n : Nat} (h : o.after n = .ok a m) :
    ∃ k, o = .ok a k ∧ m = n + k := by
  cases o with
  | ok b k =>
    obtain ⟨rfl, rfl⟩ := Outcome.ok.inj h
    exact ⟨k, rfl, rfl⟩
  | fail f k => cases h

theorem map_eq_ok {o : Outcome α} {g : α → β} {b : β} {n : Nat} (h : o.map g = .ok b n) :
    ∃ a, o = .ok a n ∧ b = g a := by
  cases o with
  | ok a k =>
    obtain ⟨rfl, rfl⟩ := Outcome.ok.inj h
    exact ⟨a, rfl, rfl⟩
  | fail f k => cases h

end Outcome

namespace Phrase

variable {α β : Type} {p : Phrase α} {f : α → Phrase β}

/-! ## One phrase after the other -/

theorem bind_apply (p : Phrase α) (f : α → Phrase β) (ts : List Token) :
    (p >>= f) ts =
      match p ts with
      | .ok a n => (f a (ts.drop n)).after n
      | .fail g n => .fail g n := rfl

@[simp] theorem peek_bind (f : Token → Phrase β) (ts : List Token) :
    (peek >>= f) ts = f (ts.headD .eof) ts :=
  Outcome.after_zero _

@[simp] theorem peekSecond_bind (f : Token → Phrase β) (ts : List Token) :
    (peekSecond >>= f) ts = f (ts.getD 1 .eof) ts :=
  Outcome.after_zero _

@[simp] theorem advance_bind_cons (f : Unit → Phrase β) (t : Token) (ts : List Token) :
    (advance >>= f) (t :: ts) = (f () ts).after 1 := rfl

theorem bind_of_ok {ts : List Token} {a : α} {n : Nat} (h : p ts = .ok a n) :
    (p >>= f) ts = (f a (ts.drop n)).after n := by
  rw [bind_apply, h]

theorem bind_bind {γ : Type} (p : Phrase α) (f : α → Phrase β) (g : β → Phrase γ) :
    (p >>= f) >>= g = p >>= fun a => f a >>= g := by
  funext ts
  simp only [bind_apply]
  cases p ts with
  | fail e n => rfl
  | ok a n =>
    cases h : f a (ts.drop n) with
    | fail e k => simp only [h, Outcome.after]
    | ok b k =>
      simp only [h]
      show (g b (ts.drop (n + k))).after (n + k) = ((g b ((ts.drop n).drop k)).after k).after n
      rw [List.drop_drop, Outcome.after_after]

theorem pure_bind (a : α) (g : α → Phrase β) : (Pure.pure a >>= g) = g a :=
  funext fun ts => Outcome.after_zero (g a ts)

theorem exists_of_bind_eq_ok {ts : List Token} {b : β} {n : Nat} (h : (p >>= f) ts = .ok b n) :
    ∃ a i j, p ts = .ok a i ∧ f a (ts.drop i) = .ok b j ∧ n = i + j := by
  rw [bind_apply] at h
  cases hp : p ts with
  | ok a i =>
    rw [hp] at h
    obtain ⟨j, hj, hn⟩ := Outcome.after_eq_ok h
    exact ⟨a, i, j, rfl, hj, hn⟩
  | fail g i =>
    rw [hp] at h
    cases h

theorem expect_apply (k : Kind) (ts : List Token) :
    expect k ts =
      if frontKind ts = k then .ok (ts.headD .eof) 1
      else .fail (.expected [k] (ts.headD .eof)) 0 := by
  rw [expect, peek_bind, frontKind]
  split <;> rfl

/-! ## What a phrase reads is related to its value -/

/-- Whatever the phrase reads is a front part of the tokens, related by `R` to the value given. -/
def Sound (p : Phrase α) (R : List Token → α → Prop) : Prop :=
  ∀ ts a n, p ts = .ok a n → ∃ us rest, ts = us ++ rest ∧ us.length = n ∧ R us a

variable {R : List Token → α → Prop}

/-- The first of two phrases reads a front part and leaves the rest to the second. -/
theorem Sound.step (hp : p.Sound R) {ts : List Token} {b : β} {n : Nat}
    (h : (p >>= f) ts = .ok b n) :
    ∃ us rest a m, ts = us ++ rest ∧ R us a ∧ f a rest = .ok b m ∧ n = us.length + m := by
  obtain ⟨a, i, m, hp', hf, rfl⟩ := exists_of_bind_eq_ok h
  obtain ⟨us, rest, rfl, rfl, hR⟩ := hp _ _ _ hp'
  rw [List.drop_left] at hf
  exact ⟨us, rest, a, m, rfl, hR, hf, rfl⟩

theorem sound_fail (g : ParseFault) : (fail g : Phrase α).Sound R := by
  intro ts a n h
  cases h

/-- A token of a kind that the end does not have is read as that one token. -/
theorem sound_expect {k : Kind} (hk : k ≠ .eof) :
    (expect k).Sound fun us t => us = [t] ∧ t.kind = k := by
  intro ts a n h
  rw [expect_apply] at h
  split at h
  · next hkind =>
    obtain ⟨rfl, rfl⟩ := Outcome.ok.inj h
    cases ts with
    | nil => exact absurd hkind.symm hk
    | cons t rest => exact ⟨[t], rest, rfl, rfl, rfl, hkind⟩
  · cases h

theorem Sound.mono {S : List Token → α → Prop} (hp : p.Sound R) (h : ∀ us a, R us a → S us a) :
    p.Sound S := by
  intro ts a n hts
  obtain ⟨us, rest, hus, hn, hR⟩ := hp ts a n hts
  exact ⟨us, rest, hus, hn, h us a hR⟩

section chain

variable {γ : Type} {op? : Kind → Option γ} {combine : γ → α → α → α} {operand : Phrase α}
  {S : List Token → α → Prop}

theorem chainFrom_cons {left : α} {t : Token} {op : γ} (hop : op? t.kind = some op)
    (rest : List Token) :
    chainFrom op? combine operand left (t :: rest) =
      match operand rest with
      | .fail f n => .fail f (n + 1)
      | .ok right n =>
        (chainFrom op? combine operand (combine op left right) (rest.drop n)).after (n + 1) := by
  cases h : operand rest with
  | fail f n =>
    rw [chainFrom]
    simp only [hop, h]
  | ok right n =>
    rw [chainFrom]
    simp only [hop, h]

/-- The loop ends where the next token is no operator. -/
theorem chainFrom_stop {left : α} {ts : List Token} (h : op? (frontKind ts) = none) :
    chainFrom op? combine operand left ts = .ok left 0 := by
  cases ts with
  | nil => rw [chainFrom]
  | cons t rest =>
    rw [frontKind_cons] at h
    rw [chainFrom, h]

/-- What the loop has read so far stays a chain, whatever it reads on. -/
theorem sound_chainFrom (hS : operand.Sound S)
    (hstep : ∀ us vs t op l r, R us l → op? t.kind = some op → S vs r →
      R (us ++ t :: vs) (combine op l r))
    {ts : List Token} {left a : α} {n : Nat} {us : List Token} (hleft : R us left)
    (h : chainFrom op? combine operand left ts = .ok a n) :
    ∃ vs rest, ts = vs ++ rest ∧ vs.length = n ∧ R (us ++ vs) a := by
  fun_induction chainFrom op? combine operand left ts generalizing us a n with
  | case1 left =>
    obtain ⟨rfl, rfl⟩ := Outcome.ok.inj h
    exact ⟨[], [], rfl, rfl, by rwa [List.append_nil]⟩
  | case2 left t rest hop =>
    obtain ⟨rfl, rfl⟩ := Outcome.ok.inj h
    exact ⟨[], t :: rest, rfl, rfl, by rwa [List.append_nil]⟩
  | case3 => cases h
  | case4 left t rest op hop right k hright ih =>
    -- one more operator with its operand is a chain again, from which the loop goes on
    obtain ⟨m, hm, rfl⟩ := Outcome.after_eq_ok h
    obtain ⟨vs, rest', rfl, rfl, hvs⟩ := hS _ _ _ hright
    rw [List.drop_left] at hm ih
    obtain ⟨ws, rest'', rfl, rfl, hR⟩ := ih (hstep _ _ _ _ _ _ hleft hop hvs) hm
    refine ⟨t :: (vs ++ ws), rest'', by simp, by simp; omega, ?_⟩
    rwa [List.append_assoc, List.cons_append] at hR

/-- A chain reads what its relation admits, if that is closed under one more operator with an
operand to its right. -/
theorem sound_chain (hS : operand.Sound S) (hfirst : ∀ us a, S us a → R us a)
    (hstep : ∀ us vs t op l r, R us l → op? t.kind = some op → S vs r →
      R (us ++ t :: vs) (combine op l r)) :
    (chain op? combine operand).Sound R := by
  intro ts a n h
  obtain ⟨us, rest, left, m, rfl, hus, hloop, rfl⟩ := hS.step h
  obtain ⟨vs, rest', rfl, rfl, hR⟩ := sound_chainFrom hS hstep (hfirst us left hus) hloop
  exact ⟨us ++ vs, rest', by simp, by simp, hR⟩

end chain

section many

variable {starts : Kind → Bool} {item : Phrase α}

/-- The token list is made of parts that `R` relates to the values, in order. -/
inductive Concat (R : List Token → α → Prop) : List Token → List α → Prop where
  | nil : Concat R [] []
  | cons {us vs : List Token} {a : α} {as : List α} (first : R us a) (rest : Concat R vs as) :
    Concat R (us ++ vs) (a :: as)

theorem sound_many (hR : item.Sound R) : (many starts item).Sound (Concat R) := by
  intro ts as n h
  fun_induction many starts item ts generalizing as n with
  | case1 =>
    obtain ⟨rfl, rfl⟩ := Outcome.ok.inj h
    exact ⟨[], [], rfl, rfl, .nil⟩
  | case2 => cases h
  | case3 t rest hstart a ha =>
    -- an item that uses no token is the last
    obtain ⟨rfl, rfl⟩ := Outcome.ok.inj h
    obtain ⟨us, rest', hus, hlen, hua⟩ := hR _ _ _ ha
    refine ⟨us, rest', hus, hlen, ?_⟩
    rw [← List.append_nil us]
    exact .cons hua .nil
  | case4 t rest hstart a k ha ih =>
    obtain ⟨m, hm, rfl⟩ := Outcome.after_eq_ok h
    obtain ⟨bs, hbs, rfl⟩ := Outcome.map_eq_ok hm
    obtain ⟨us, rest', hus, hlen, hua⟩ := hR _ _ _ ha
    have hdrop : rest.drop k = rest' := by
      have : (t :: rest).drop (k + 1) = (us ++ rest').drop us.length := by rw [hus, hlen]
      rwa [List.drop_succ_cons, List.drop_left] at this
    rw [hdrop] at hbs ih
    obtain ⟨vs, rest'', rfl, rfl, hvs⟩ := ih _ _ hbs
    exact ⟨us ++ vs, rest'', by rw [hus, List.append_assoc], by simp [hlen], .cons hua hvs⟩
  | case5 t rest hstart =>
    obtain ⟨rfl, rfl⟩ := Outcome.ok.inj h
    exact ⟨[], t :: rest, rfl, rfl, .nil⟩

end many

/-! ## What a phrase reads in front of the rest -/

/-- In front of `rest` the phrase reads `us`, no more and no less, and gives `a`. -/
def Reads (p : Phrase α) (us : List Token) (a : α) (rest : List Token) : Prop :=
  p (us ++ rest) = .ok a us.length

theorem Reads.bind {us vs rest : List Token} {a : α} {b : β} (hp : p.Reads us a (vs ++ rest))
    (hf : (f a).Reads vs b rest) : (p >>= f).Reads (us ++ vs) b rest := by
  rw [Reads, List.append_assoc, bind_of_ok hp, List.drop_left, hf, List.length_append]
  rfl

/-- A value given after the last phrase is given for what that phrase reads. -/
theorem Reads.return {us rest : List Token} {a : α} (hp : p.Reads us a rest) (g : α → β) :
    (p >>= fun a => Pure.pure (g a)).Reads us (g a) rest := by
  rw [Reads, bind_of_ok hp]
  rfl

theorem reads_expect {t : Token} {k : Kind} (h : t.kind = k) (rest : List Token) :
    (expect k).Reads [t] t rest := by
  rw [Reads, expect_apply, List.singleton_append, frontKind_cons, if_pos h]
  rfl

theorem reads_expect_bind {t : Token} {k : Kind} {f : Token → Phrase β} {us rest : List Token}
    {b : β} (h : t.kind = k) (hf : (f t).Reads us b rest) :
    (expect k >>= f).Reads (t :: us) b rest :=
  (reads_expect h (us ++ rest)).bind hf

/-- A phrase that uses up a token and goes on as another reads that token as well. -/
theorem Reads.cons {q : Phrase α} {t : Token} {us rest : List Token} {a : α}
    (hq : q.Reads us a rest) (h : p (t :: (us ++ rest)) = (q (us ++ rest)).after 1) :
    p.Reads (t :: us) a rest := by
  rw [Reads, List.cons_append, h, hq, List.length_cons, Nat.add_comm]
  rfl

/-- A phrase is read together with the token that closes it. -/
theorem Reads.closed {us rest : List Token} {a : α} {closing : Token} {k : Kind}
    (inside : p.Reads us a (closing :: rest)) (closeKind : closing.kind = k) :
    (do let a ← p; let _ ← expect k; return a : Phrase α).Reads (us ++ [closing]) a rest :=
  inside.bind ((reads_expect closeKind rest).return fun _ => a)

section chain

variable {γ : Type} {op? : Kind → Option γ} {combine : γ → α → α → α} {operand : Phrase α}

/-- A chain that starts with an operand goes on from there. -/
theorem chain_of_operand {us rest : List Token} {a : α} (h : operand.Reads us a rest) :
    chain op? combine operand (us ++ rest)
      = (chainFrom op? combine operand a rest).after us.length := by
  rw [chain, bind_of_ok h, List.drop_left]

/-- A chain that goes on with an operator and an operand goes on from the two combined. -/
theorem chain_of_chain {us vs rest : List Token} {t : Token} {op : γ} {l r : α}
    (hl : chain op? combine operand (us ++ (t :: (vs ++ rest)))
      = (chainFrom op? combine operand l (t :: (vs ++ rest))).after us.length)
    (hop : op? t.kind = some op) (hr : operand.Reads vs r rest) :
    chain op? combine operand ((us ++ t :: vs) ++ rest)
      = (chainFrom op? combine operand (combine op l r) rest).after (us ++ t :: vs).length := by
  have hr' : operand (vs ++ rest) = .ok r vs.length := hr
  rw [List.append_assoc, List.cons_append, hl, chainFrom_cons hop, hr', List.length_append,
    List.length_cons]
  simp only [List.drop_left, Outcome.after_after]

/-- A chain ends where the next token is no operator. -/
theorem reads_chain {us rest : List Token} {a : α}
    (h : chain op? combine operand (us ++ rest)
      = (chainFrom op? combine operand a rest).after us.length)
    (hstop : op? (frontKind rest) = none) : (chain op? combine operand).Reads us a rest := by
  rw [Reads, h, chainFrom_stop hstop]
  rfl

end chain

section many

variable {starts : Kind → Bool} {item : Phrase α}

/-- Items end where the next token starts none. -/
theorem many_stop {ts : List Token} (h : starts (frontKind ts) = false) :
    many starts item ts = .ok [] 0 := by
  cases ts with
  | nil => rw [many]
  | cons t rest =>
    rw [frontKind_cons] at h
    rw [many, if_neg (by simp [h])]

/-- An item at whose first token items start comes before all that follow. -/
theorem many_cons {t : Token} {us rest : List Token} {a : α} {as : List α} {n : Nat}
    (hstart : starts t.kind = true) (ha : item.Reads (t :: us) a rest)
    (has : many starts item rest = .ok as n) :
    many starts item ((t :: us) ++ rest) = .ok (a :: as) ((t :: us).length + n) := by
  have ha' : item (t :: (us ++ rest)) = .ok a (us.length + 1) := ha
  rw [List.cons_append, many, if_pos hstart, ha']
  simp only [List.drop_left, has]
  rfl

end many

end Phrase

end WhileFrontend
