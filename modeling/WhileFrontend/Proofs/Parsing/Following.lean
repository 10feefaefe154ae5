import WhileFrontend.Parsing.Walk
import WhileFrontend.Proofs.Parsing.Wall

/-!
# Walks follow phrases

A walk has nothing but a position in the whole list, a phrase is given the tokens that lie ahead of
one. From every position that something lies ahead of, the walk of a nonterminal comes to what its
phrase comes to (`Walk.follows_phrase`), one lemma for each way of putting procedures together and
one for each procedure.

Bounds are carried along: the marks of a walk lie between its start and the end of what lies ahead.
For that a token that is moved past has to be there, so what stands behind a look at a token is
compared for each token by itself (`Walk.FollowsBehind`).
-/

namespace WhileFrontend

/-! ## What lies ahead of a position -/

namespace Cursor

variable {c : Cursor} {i : Int}

theorem neg_of_lt (h : i < -c.length) : i < 0 := by
  rw [length] at h
  omega

/-- Too far before the start nothing lies ahead. -/
theorem aheadFrom?_of_lt (h : i < -c.length) : c.aheadFrom? i = none := by
  rw [aheadFrom?, if_neg (Int.not_le.mpr (neg_of_lt h)), if_neg (Int.not_le.mpr h)]

end Cursor

/-- Reading from the position on goes through these tokens. -/
def LiesAhead (ts : List Token) (p : Int) (ahead : List Token) : Prop :=
  ({ tokens := ts, position := p } : Cursor).aheadFrom? p = some ahead

namespace LiesAhead

variable {ts ahead : List Token} {p : Int}

theorem of_nonneg (ts : List Token) (h : 0 ≤ p) : LiesAhead ts p (ts.drop p.toNat) :=
  if_pos h

theorem of_natCast (ts : List Token) (n : Nat) : LiesAhead ts n (ts.drop n) :=
  of_nonneg ts (Int.natCast_nonneg n)

theorem start (ts : List Token) : LiesAhead ts 0 ts :=
  of_natCast ts 0

/-- Before the start the end of the list lies ahead, and behind it the whole list. -/
theorem of_neg (hneg : p < 0) (hlow : -(ts.length : Int) ≤ p) :
    LiesAhead ts p (ts.drop (ts.length + p).toNat ++ ts) := by
  rw [LiesAhead, Cursor.aheadFrom?, if_neg (Int.not_le.mpr hneg)]
  exact if_pos hlow

theorem exists_of_le (hlow : -(ts.length : Int) ≤ p) : ∃ ahead, LiesAhead ts p ahead := by
  by_cases hneg : p < 0
  · exact ⟨_, of_neg hneg hlow⟩
  · exact ⟨_, of_nonneg ts (Int.not_lt.mp hneg)⟩

/-- Either a part of the list lies ahead, or its end and then the whole list. -/
theorem cases (h : LiesAhead ts p ahead) :
    (0 ≤ p ∧ ahead = ts.drop p.toNat) ∨
      (p < 0 ∧ -(ts.length : Int) ≤ p ∧ ahead = ts.drop (ts.length + p).toNat ++ ts) := by
  rw [LiesAhead, Cursor.aheadFrom?] at h
  split at h
  · next hpos => exact .inl ⟨hpos, (Option.some.inj h).symm⟩
  · next hneg =>
    split at h
    · next hlow => exact .inr ⟨Int.not_le.mp hneg, hlow, (Option.some.inj h).symm⟩
    · cases h

theorem length_eq (h : LiesAhead ts p ahead) : ahead.length = Walk.tokensLeft ts p := by
  rw [Walk.tokensLeft]
  obtain ⟨hpos, rfl⟩ | ⟨hneg, hlow, rfl⟩ := h.cases
  · rw [List.length_drop]
    omega
  · rw [List.length_append, List.length_drop]
    omega

/-- Further on, what lies ahead is what is left of it. -/
theorem drop (h : LiesAhead ts p ahead) (n : Nat) : LiesAhead ts (p + n) (ahead.drop n) := by
  obtain ⟨hpos, rfl⟩ | ⟨hneg, hlow, rfl⟩ := h.cases
  · have hsum : (p + n).toNat = p.toNat + n := by omega
    rw [List.drop_drop, ← hsum]
    exact of_nonneg ts (by omega)
  · by_cases hstart : 0 ≤ p + n
    · have hlength : (ts.drop (ts.length + p).toNat).length ≤ n := by
        rw [List.length_drop]
        omega
      have hrest : n - (ts.drop (ts.length + p).toNat).length = (p + n).toNat := by
        rw [List.length_drop]
        omega
      rw [List.drop_append, List.drop_eq_nil_of_le hlength, List.nil_append, hrest]
      exact of_nonneg ts hstart
    · have hlength : n ≤ (ts.drop (ts.length + p).toNat).length := by
        rw [List.length_drop]
        omega
      have hsum : (ts.length + (p + n)).toNat = (ts.length + p).toNat + n := by omega
      rw [List.drop_append_of_le_length hlength, List.drop_drop, ← hsum]
      exact of_neg (by omega) (by omega)

theorem current (h : LiesAhead ts p ahead) :
    ({ tokens := ts, position := p } : Cursor).current = .ok (ahead.headD .eof) := by
  rw [LiesAhead] at h
  rw [Cursor.current, Cursor.tokenAt, h]

theorem peek (h : LiesAhead ts p ahead) :
    ({ tokens := ts, position := p } : Cursor).peek 1 = .ok (ahead.getD 1 .eof) := by
  have hnext : ({ tokens := ts, position := p } : Cursor).aheadFrom? (p + 1)
      = some (ahead.drop 1) := h.drop 1
  rw [Cursor.peek, Cursor.tokenAt, hnext]
  cases ahead with
  | nil => rfl
  | cons t rest => cases rest <;> rfl

theorem advance (h : LiesAhead ts p ahead) :
    ({ tokens := ts, position := p } : Cursor).advance
      = (.ok (ahead.getD 1 .eof), { tokens := ts, position := p + 1 }) :=
  congrArg (Prod.mk · _) h.peek

end LiesAhead

/-! ## Walks that follow phrases -/

namespace Mark

/-- All positions of the mark are within bounds, and a turn has moved forward. -/
def Within (lo hi : Int) : Mark → Prop
  | read i => lo ≤ i ∧ i ≤ hi
  | turn start stop => lo ≤ start ∧ start < stop ∧ stop ≤ hi

theorem Within.mono {lo lo' hi hi' : Int} {m : Mark} (h : m.Within lo hi) (hlo : lo' ≤ lo)
    (hhi : hi ≤ hi') : m.Within lo' hi' := by
  cases m with
  | read i => exact ⟨Int.le_trans hlo h.1, Int.le_trans h.2 hhi⟩
  | turn start stop => exact ⟨Int.le_trans hlo h.1, h.2.1, Int.le_trans h.2.2 hhi⟩

end Mark

/-- What comes of a phrase, as what comes of a walk. -/
def Outcome.answer {α : Type} : Outcome α → Except Hindrance α
  | ok a _ => .ok a
  | fail f _ => .error (.fault (.parse f))

namespace Phrase

variable {α β γ : Type}

/-- Where a chain goes on, it reads an operator with its operand, and goes on behind them. -/
theorem chainFrom_eq_turn_bind {op? : Kind → Option γ} {combine : γ → α → α → α}
    {operand : Phrase α} {t : Token} {op : γ} (hop : op? t.kind = some op) (left : α)
    (rest : List Token) :
    chainFrom op? combine operand left (t :: rest)
      = ((do
          advance
          let right ← operand
          return combine op left right) >>= chainFrom op? combine operand : Phrase α)
        (t :: rest) := by
  rw [chainFrom_eq_bind hop, bind_bind]
  simp only [bind_bind, pure_bind]

/-- Where an item may start, one is read that uses tokens, and then the others. -/
theorem many_map_eq_turn_bind {starts : Kind → Bool} {item : Phrase α} {ts : List Token}
    (hend : starts .eof = false) (hprogress : ∀ ts a n, item ts = .ok a n → 0 < n)
    (before : List α) (hstart : starts (frontKind ts) = true) :
    (many starts item).map (before ++ ·) ts
      = ((do
          let a ← item
          return before ++ [a]) >>= fun as => (many starts item).map (as ++ ·) : Phrase (List α)) ts
      := by
  simp only [bind_bind, pure_bind]
  rw [map, many_eq hend hstart, bind_apply]
  cases hitem : item ts with
  | fail e n => rfl
  | ok a n =>
    cases n with
    | zero => exact absurd (hprogress ts a 0 hitem) (Nat.lt_irrefl 0)
    | succ n =>
      simp only [map]
      cases many starts item (ts.drop (n + 1)) with
      | fail e k => rfl
      | ok as k => simp [Outcome.map, Outcome.after]

end Phrase

namespace Walk

variable {α β : Type} {w : Walk α} {f : α → Walk β} {ts ahead : List Token} {p : Int}

theorem bind_of_ok {a : α} (h : (w ts p).result = .ok a) :
    (w >>= f) ts p = { f a ts (w ts p).position with
      trail := (w ts p).trail ++ (f a ts (w ts p).position).trail } := by
  show Walk.bind w f ts p = _
  rw [Walk.bind]
  generalize w ts p = walked at h
  obtain ⟨result, q, trail⟩ := walked
  cases h
  rfl

theorem bind_of_error {e : Hindrance} (h : (w ts p).result = .error e) :
    (w >>= f) ts p
      = { result := .error e, position := (w ts p).position, trail := (w ts p).trail } := by
  show Walk.bind w f ts p = _
  rw [Walk.bind]
  generalize w ts p = walked at h
  obtain ⟨result, q, trail⟩ := walked
  cases h
  rfl

/-- From the position, in front of what lies ahead of it, the walk comes to what the phrase comes
to: it gives the same, ends behind the tokens that the phrase uses, and leaves no mark before its
start or behind the end. -/
structure FollowsAt (w : Walk α) (q : Phrase α) (ts : List Token) (p : Int) (ahead : List Token) :
    Prop where
  result : (w ts p).result = (q ahead).answer
  position : (w ts p).position = p + (q ahead).used
  used_le : (q ahead).used ≤ ahead.length
  trail : ∀ m ∈ (w ts p).trail, m.Within p (p + ahead.length)

/-- From every position that something lies ahead of, the walk follows the phrase. -/
def Follows (w : Walk α) (q : Phrase α) : Prop :=
  ∀ ts p ahead, LiesAhead ts p ahead → w.FollowsAt q ts p ahead

/-- The same from the positions at which the given token stands. -/
def FollowsBehind (t : Token) (w : Walk α) (q : Phrase α) : Prop :=
  ∀ ts p ahead, LiesAhead ts p ahead → ahead.headD .eof = t → w.FollowsAt q ts p ahead

variable {q r : Phrase α} {g : α → Phrase β}

theorem Follows.behind (h : w.Follows q) (t : Token) : w.FollowsBehind t q :=
  fun ts p ahead hahead _ => h ts p ahead hahead

/-- A walk that gives something else on the same way follows a phrase that does so. -/
theorem FollowsAt.relabel {w' : Walk β} {r : Phrase β} (h : w.FollowsAt q ts p ahead)
    (hw : w' ts p = { result := (r ahead).answer, position := (w ts p).position,
                      trail := (w ts p).trail })
    (hr : (r ahead).used = (q ahead).used) : w'.FollowsAt r ts p ahead := by
  obtain ⟨-, hposition, hused, htrail⟩ := h
  exact ⟨by rw [hw], by rw [hw, hr]; exact hposition, by rwa [hr], by rw [hw]; exact htrail⟩

theorem FollowsAt.congr (h : w.FollowsAt q ts p ahead) (hqr : r ahead = q ahead) :
    w.FollowsAt r ts p ahead :=
  h.relabel (by rw [hqr, ← h.result]) (congrArg Outcome.used hqr)

theorem FollowsAt.bind (hw : w.FollowsAt q ts p ahead)
    (hf : ∀ a n, q ahead = .ok a n → (f a).FollowsAt (g a) ts (p + n) (ahead.drop n)) :
    (w >>= f).FollowsAt (q >>= g) ts p ahead := by
  obtain ⟨hresult, hposition, hused, htrail⟩ := hw
  cases hq : q ahead with
  | fail e n =>
    rw [hq] at hresult hposition hused
    have hbind : (q >>= g) ahead = .fail e n := by rw [Phrase.bind_apply, hq]
    refine ⟨?_, ?_, ?_, ?_⟩
    · rw [bind_of_error hresult, hbind]
      rfl
    · rw [bind_of_error hresult, hbind]
      exact hposition
    · rw [hbind]
      exact hused
    · rw [bind_of_error hresult]
      exact htrail
  | ok a n =>
    rw [hq] at hresult hposition hused
    obtain ⟨hresult', hposition', hused', htrail'⟩ := hf a n hq
    have hposition : (w ts p).position = p + n := hposition
    have hused : n ≤ ahead.length := hused
    rw [List.length_drop] at hused' htrail'
    have hbind := Phrase.bind_of_ok (f := g) hq
    refine ⟨?_, ?_, ?_, ?_⟩
    · rw [bind_of_ok hresult, hbind, hposition]
      exact hresult'.trans (by cases g a (ahead.drop n) <;> rfl)
    · rw [bind_of_ok hresult, hbind, hposition, Outcome.used_after]
      show (f a ts (p + n)).position = _
      rw [hposition']
      omega
    · rw [hbind, Outcome.used_after]
      omega
    · rw [bind_of_ok hresult, hposition]
      intro m hm
      rcases List.mem_append.mp hm with hm | hm
      · exact htrail m hm
      · exact (htrail' m hm).mono (by omega) (by omega)

theorem Follows.bind (hw : w.Follows q) (hf : ∀ a, (f a).Follows (g a)) :
    (w >>= f).Follows (q >>= g) :=
  fun ts p ahead hahead =>
    (hw ts p ahead hahead).bind fun a n _ => hf a ts (p + n) (ahead.drop n) (hahead.drop n)

theorem Follows.map (h : w.Follows q) (e : α → β) : (w.map e).Follows (q.map e) := by
  intro ts p ahead hahead
  have hw := h ts p ahead hahead
  refine hw.relabel ?_ (by rw [Phrase.map, Outcome.used_map])
  rw [Walk.map, hw.result, Phrase.map]
  cases q ahead <;> rfl

theorem follows_pure (a : α) : (Pure.pure a : Walk α).Follows (Pure.pure a) :=
  fun _ p _ _ => ⟨rfl, (Int.add_zero p).symm, Nat.zero_le _, nofun⟩

theorem follows_fail (e : ParseFault) : (fail e : Walk α).Follows (Phrase.fail e) :=
  fun _ p _ _ => ⟨rfl, (Int.add_zero p).symm, Nat.zero_le _, nofun⟩

theorem follows_current : current.Follows Phrase.peek := by
  intro ts p ahead hahead
  refine ⟨?_, (Int.add_zero p).symm, Nat.zero_le _, ?_⟩
  · show Except.mapError _ _ = _
    rw [hahead.current]
    rfl
  · intro m hm
    obtain rfl := List.mem_singleton.mp hm
    exact ⟨Int.le_refl p, by omega⟩

/-- What follows a look at the token may depend on which one it is. -/
theorem follows_current_bind {f : Token → Walk β} {g : Token → Phrase β}
    (h : ∀ t, (f t).FollowsBehind t (g t)) : (current >>= f).Follows (Phrase.peek >>= g) := by
  intro ts p ahead hahead
  refine (follows_current ts p ahead hahead).bind fun t n ht => ?_
  obtain ⟨rfl, rfl⟩ := Outcome.ok.inj ht
  have hzero : p + (0 : Nat) = p := Int.add_zero p
  rw [hzero]
  exact h _ ts p ahead hahead rfl

/-- A token that is no end marker can be moved past. -/
theorem followsAt_advance {t : Token} {rest : List Token} (h : LiesAhead ts p (t :: rest)) :
    advance.FollowsAt Phrase.advance ts p (t :: rest) := by
  have hadvance := h.advance
  refine ⟨?_, ?_, Nat.succ_le_succ (Nat.zero_le _), ?_⟩
  · show ((Cursor.advance _).1.mapError _).map _ = _
    rw [hadvance]
    rfl
  · show (Cursor.advance _).2.position = _
    rw [hadvance]
    rfl
  · intro m hm
    obtain rfl := List.mem_singleton.mp hm
    rw [hadvance, List.length_cons]
    exact ⟨by show p ≤ p + 1; omega, by show p + 1 ≤ _; omega⟩

/-- Behind a token that is there, the position of the next one is no further than the end. -/
theorem followsAt_peek {t : Token} {rest : List Token} (h : LiesAhead ts p (t :: rest)) :
    peek.FollowsAt Phrase.peekSecond ts p (t :: rest) := by
  refine ⟨?_, (Int.add_zero p).symm, Nat.zero_le _, ?_⟩
  · show Except.mapError _ _ = _
    rw [h.peek]
    rfl
  · intro m hm
    obtain rfl := List.mem_singleton.mp hm
    rw [List.length_cons]
    exact ⟨by omega, by omega⟩

theorem followsBehind_advance_bind {t : Token} (ht : t.kind ≠ .eof) {f : Unit → Walk β}
    {g : Unit → Phrase β} (h : (f ()).Follows (g ())) :
    (advance >>= f).FollowsBehind t (Phrase.advance >>= g) := by
  rintro ts p (_ | ⟨u, rest⟩) hahead hhead
  · obtain rfl : Token.eof = t := hhead
    exact absurd rfl ht
  · refine (followsAt_advance hahead).bind fun _ n _ => ?_
    exact h ts (p + n) _ (hahead.drop n)

theorem follows_expect {k : Kind} (hk : k ≠ .eof) : (expect k).Follows (Phrase.expect k) := by
  refine follows_current_bind fun t => ?_
  split
  · next ht => exact followsBehind_advance_bind (by rwa [ht]) (follows_pure t)
  · exact (follows_fail _).behind t

theorem follows_nested {cost d : Nat} {w : Nat → Walk α} {q : Nat → Phrase α}
    (h : ∀ b, b + cost = d → (w b).Follows (q b)) :
    (nested cost w d).Follows (Phrase.nested cost q d) := by
  unfold nested Phrase.nested
  split
  · next hcost => exact h _ (Nat.sub_add_cancel hcost)
  · exact follows_fail _

/-! ## Loops -/

section loop

variable {turn? : α → Kind → Option (Walk α)} {a : α} {turn : Walk α}

theorem current_apply (h : LiesAhead ts p ahead) :
    current ts p = { result := .ok (ahead.headD .eof), position := p, trail := [.read p] } := by
  rw [current, h.current]
  rfl

/-- A loop ends where the token asks for no turn. -/
theorem loop_of_none (h : LiesAhead ts p ahead) (hstop : turn? a (frontKind ahead) = none) :
    loop turn? a ts p = { result := .ok a, position := p, trail := [.read p] } := by
  rw [frontKind] at hstop
  rw [loop, current_apply h]
  simp only [hstop]

theorem followsAt_loop_stop (h : LiesAhead ts p ahead) (hstop : turn? a (frontKind ahead) = none) :
    (loop turn? a).FollowsAt (Pure.pure a) ts p ahead := by
  refine ⟨?_, ?_, Nat.zero_le _, ?_⟩ <;> rw [loop_of_none h hstop]
  · rfl
  · exact (Int.add_zero p).symm
  · exact List.forall_mem_singleton.mpr ⟨Int.le_refl p, by omega⟩

theorem loop_of_error (h : LiesAhead ts p ahead) (hturn : turn? a (frontKind ahead) = some turn)
    {e : Hindrance} (herror : (turn ts p).result = .error e) :
    loop turn? a ts p
      = { result := .error e, position := (turn ts p).position,
          trail := .read p :: (turn ts p).trail } := by
  rw [frontKind] at hturn
  rw [loop, current_apply h]
  simp only [hturn]
  generalize turn ts p = walked at herror
  obtain ⟨result, q, trail⟩ := walked
  obtain rfl : result = .error e := herror
  rfl

/-- Behind a turn that leaves fewer tokens the loop goes on, behind any other it stands still. -/
theorem loop_of_ok (h : LiesAhead ts p ahead) (hturn : turn? a (frontKind ahead) = some turn)
    {next : α} (hok : (turn ts p).result = .ok next) :
    loop turn? a ts p
      = if tokensLeft ts (turn ts p).position < tokensLeft ts p then
          { loop turn? next ts (turn ts p).position with
            trail := .read p :: (turn ts p).trail ++
              .turn p (turn ts p).position :: (loop turn? next ts (turn ts p).position).trail }
        else
          { result := .error .standstill, position := (turn ts p).position,
            trail := .read p :: (turn ts p).trail } := by
  rw [frontKind] at hturn
  rw [loop, current_apply h]
  simp only [hturn]
  generalize turn ts p = walked at hok
  obtain ⟨result, q, trail⟩ := walked
  obtain rfl : result = .ok next := hok
  rfl

/-- One turn of a loop and the loop behind it follow one phrase and another, if the first uses
tokens. -/
theorem followsAt_loop {g : α → Phrase α} (hahead : LiesAhead ts p ahead)
    (hturn : turn? a (frontKind ahead) = some turn) (hq : turn.FollowsAt q ts p ahead)
    (hprogress : ∀ b n, q ahead = .ok b n → 0 < n)
    (hg : ∀ b n, q ahead = .ok b n → (loop turn? b).FollowsAt (g b) ts (p + n) (ahead.drop n)) :
    (loop turn? a).FollowsAt (q >>= g) ts p ahead := by
  obtain ⟨hresult, hposition, hused, htrail⟩ := hq
  cases hout : q ahead with
  | fail e n =>
    rw [hout] at hresult hposition hused
    have hbind : (q >>= g) ahead = .fail e n := by rw [Phrase.bind_apply, hout]
    have hloop := loop_of_error hahead hturn hresult
    refine ⟨?_, ?_, ?_, ?_⟩
    · rw [hloop, hbind]
      rfl
    · rw [hloop, hbind]
      exact hposition
    · rw [hbind]
      exact hused
    · rw [hloop]
      exact List.forall_mem_cons.mpr ⟨⟨Int.le_refl p, by omega⟩, htrail⟩
  | ok b n =>
    rw [hout] at hresult hposition hused
    have hposition : (turn ts p).position = p + n := hposition
    have hused : n ≤ ahead.length := hused
    have hpos := hprogress b n hout
    obtain ⟨hresult', hposition', hused', htrail'⟩ := hg b n hout
    have hless : tokensLeft ts (turn ts p).position < tokensLeft ts p := by
      rw [hposition, ← hahead.length_eq, ← (hahead.drop n).length_eq, List.length_drop]
      omega
    rw [List.length_drop] at hused' htrail'
    have hbind := Phrase.bind_of_ok (f := g) hout
    have hloop := loop_of_ok hahead hturn hresult
    rw [if_pos hless, hposition] at hloop
    refine ⟨?_, ?_, ?_, ?_⟩
    · rw [hloop, hbind]
      exact hresult'.trans (by cases g b (ahead.drop n) <;> rfl)
    · rw [hloop, hbind, Outcome.used_after]
      show (loop turn? b ts (p + n)).position = _
      rw [hposition']
      omega
    · rw [hbind, Outcome.used_after]
      omega
    · rw [hloop]
      -- the look, the turn, its mark, and the loop behind it
      refine List.forall_mem_append.mpr
        ⟨List.forall_mem_cons.mpr ⟨⟨Int.le_refl p, by omega⟩, htrail⟩,
          List.forall_mem_cons.mpr ⟨⟨Int.le_refl p, by omega, by omega⟩, fun m hm => ?_⟩⟩
      exact (htrail' m hm).mono (by omega) (by omega)

/-- A loop follows phrases, one for each value that it may have come to, if each of them ends where
the loop does, and otherwise goes on as another behind a phrase that the turn follows and that uses
tokens. -/
theorem follows_loop {g : α → Phrase α}
    (hstop : ∀ a ahead, turn? a (frontKind ahead) = none → g a ahead = .ok a 0)
    (hturn : ∀ a turn ts p ahead, LiesAhead ts p ahead → turn? a (frontKind ahead) = some turn →
      ∃ q, turn.FollowsAt q ts p ahead ∧ (∀ b n, q ahead = .ok b n → 0 < n) ∧
        g a ahead = (q >>= g) ahead)
    (a : α) : (loop turn? a).Follows (g a) := by
  intro ts p ahead hahead
  -- each turn leaves fewer tokens ahead
  induction hlength : ahead.length using Nat.strongRecOn generalizing a p ahead with
  | _ k ih =>
    cases hcase : turn? a (frontKind ahead) with
    | none => exact (followsAt_loop_stop hahead hcase).congr (hstop a ahead hcase)
    | some turn =>
      obtain ⟨q, hq, hprogress, hphrase⟩ := hturn a turn ts p ahead hahead hcase
      refine (followsAt_loop hahead hcase hq hprogress fun b n hb => ?_).congr hphrase
      have hpos := hprogress b n hb
      have hused : n ≤ ahead.length := by
        have hle := hq.used_le
        rwa [hb] at hle
      refine ih _ ?_ b _ _ (hahead.drop n) rfl
      rw [← hlength, List.length_drop]
      omega

end loop

section chain

variable {γ : Type} {op? : Kind → Option γ} {combine : γ → α → α → α}

/-- A turn for an operator starts with that operator, which is no end marker. -/
theorem follows_loop_chainFrom (hend : op? .eof = none) (h : w.Follows q) (left : α) :
    (loop (chainTurn op? combine w) left).Follows (Phrase.chainFrom op? combine q left) := by
  refine follows_loop (fun a ahead hstop => ?_) (fun a turn ts p ahead hahead hturn => ?_) left
  · exact Phrase.chainFrom_stop (Option.map_eq_none_iff.mp hstop)
  · obtain ⟨op, hop, rfl⟩ := Option.map_eq_some_iff.mp hturn
    have ht : frontKind ahead ≠ .eof := NoEnd.kind_ne hend hop
    cases ahead with
    | nil => exact absurd rfl ht
    | cons t rest =>
      have hturn := h.bind fun right => follows_pure (combine op a right)
      refine ⟨_, followsBehind_advance_bind ht hturn ts p _ hahead rfl, fun b n hb => ?_,
        Phrase.chainFrom_eq_turn_bind hop a rest⟩
      obtain ⟨m, -, rfl⟩ := Outcome.after_eq_ok hb
      omega

theorem follows_chain (hend : op? .eof = none) (h : w.Follows q) :
    (chain op? combine w).Follows (Phrase.chain op? combine q) :=
  h.bind fun first => follows_loop_chainFrom hend h first

end chain

/-- A sequence of items is gone through item by item, if none of them uses no token. -/
theorem follows_loop_many {starts : Kind → Bool} (hend : starts .eof = false) (h : w.Follows q)
    (hprogress : ∀ ts a n, q ts = .ok a n → 0 < n) (before : List α) :
    (loop (itemTurn starts w) before).Follows ((Phrase.many starts q).map (before ++ ·)) := by
  refine follows_loop (g := fun before => (Phrase.many starts q).map (before ++ ·))
    (fun before ahead hstop => ?_) (fun before turn ts p ahead hahead hturn => ?_) before
  · have hstart : starts (frontKind ahead) = false := by
      unfold itemTurn at hstop
      split at hstop
      · cases hstop
      · next hno => exact Bool.eq_false_iff.mpr hno
    rw [Phrase.map, Phrase.many_stop hstart, Outcome.map, List.append_nil]
  · unfold itemTurn at hturn
    split at hturn
    · next hstart =>
      obtain rfl := Option.some.inj hturn
      refine ⟨_, h.bind (fun a => follows_pure (before ++ [a])) ts p ahead hahead,
        fun as n has => ?_, Phrase.many_map_eq_turn_bind hend hprogress before hstart⟩
      obtain ⟨a, i, j, ha, -, rfl⟩ := Phrase.exists_of_bind_eq_ok has
      exact Nat.add_pos_left (hprogress ahead a i ha) j
    · cases hturn

/-! ## Arithmetic expressions -/

section arithmetic

variable {inner : Walk Arith} {inner' : Phrase Arith}

theorem follows_factorOf (h : inner.Follows inner') :
    (factorOf inner).Follows (Phrase.factorOf inner') := by
  refine follows_current_bind fun t => ?_
  cases hkind : t.kind with
  | symbol s =>
    cases s with
    | lparen =>
      exact followsBehind_advance_bind (by rw [hkind]; nofun) <|
        h.bind fun e => (follows_expect (by nofun)).bind fun _ => follows_pure e
    | _ => exact (follows_fail _).behind t
  | number =>
    cases t.int? with
    | some n => exact followsBehind_advance_bind (by rw [hkind]; nofun) (follows_pure _)
    | none => exact (follows_fail _).behind t
  | ident =>
    cases t.text? with
    | some x => exact followsBehind_advance_bind (by rw [hkind]; nofun) (follows_pure _)
    | none => exact (follows_fail _).behind t
  | _ => exact (follows_fail _).behind t

theorem follows_summandOf (h : inner.Follows inner') :
    (summandOf inner).Follows (Phrase.summandOf inner') :=
  follows_chain rfl (follows_factorOf h)

theorem follows_arith (d : Nat) : (arith d).Follows (Phrase.arith d) := by
  induction d using Nat.strongRecOn with
  | _ d ih =>
    rw [arith_eq, Phrase.arith_eq]
    exact follows_chain rfl (follows_summandOf (follows_nested fun b hb => ih b (by omega)))

end arithmetic

/-! ## Conditions -/

section conditions

variable {arith : Walk Arith} {arith' : Phrase Arith}

theorem follows_comparisonOf (h : arith.Follows arith') :
    (comparisonOf arith).Follows (Phrase.comparisonOf arith') := by
  refine h.bind fun left => follows_current_bind fun t => ?_
  cases hop : t.kind.relational? with
  | some op =>
    have ht : t.kind ≠ .eof := NoEnd.kind_ne rfl hop
    exact followsBehind_advance_bind ht (h.bind fun _ => follows_pure _)
  | none => exact (follows_fail _).behind t

theorem follows_conjunctOf {inner operand : Walk Cond} {inner' operand' : Phrase Cond}
    (ha : arith.Follows arith') (hi : inner.Follows inner') (ho : operand.Follows operand') :
    (conjunctOf arith inner operand).Follows (Phrase.conjunctOf arith' inner' operand') := by
  refine follows_current_bind fun t => ?_
  have hcomparison := (follows_comparisonOf ha).behind t
  cases hkind : t.kind with
  | symbol s =>
    cases s with
    | lparen =>
      exact followsBehind_advance_bind (by rw [hkind]; nofun) <|
        hi.bind fun c => (follows_expect (by nofun)).bind fun _ => follows_pure c
    | _ => exact hcomparison
  | keyword k =>
    cases k with
    | notKw =>
      exact followsBehind_advance_bind (by rw [hkind]; nofun) (ho.bind fun _ => follows_pure _)
    | trueKw | falseKw =>
      exact followsBehind_advance_bind (by rw [hkind]; nofun) (follows_pure _)
    | _ => exact hcomparison
  | _ => exact hcomparison

theorem follows_condOf {conjunct : Walk Cond} {conjunct' : Phrase Cond}
    (h : conjunct.Follows conjunct') : (condOf conjunct).Follows (Phrase.condOf conjunct') :=
  follows_chain rfl (follows_chain rfl h)

theorem follows_conjunct (d : Nat) : (conjunct d).Follows (Phrase.conjunct d) := by
  induction d using Nat.strongRecOn with
  | _ d ih =>
    rw [conjunct_eq, Phrase.conjunct_eq]
    exact follows_conjunctOf (follows_arith d)
      (follows_nested fun b hb => follows_condOf (ih b (by omega)))
      (follows_nested fun b hb => ih b (by omega))

theorem follows_cond (d : Nat) : (cond d).Follows (Phrase.cond d) :=
  follows_condOf (follows_conjunct d)

end conditions

/-! ## Statements -/

section statements

variable {arith : Walk Arith} {cond : Walk Cond} {program : Walk Program} {arith' : Phrase Arith}
  {cond' : Phrase Cond} {program' : Phrase Program}

theorem follows_whileOf (hc : cond.Follows cond') (hp : program.Follows program') :
    (whileOf cond program).Follows (Phrase.whileOf cond' program') :=
  (follows_expect (by nofun)).bind fun _ => hc.bind fun _ =>
    (follows_expect (by nofun)).bind fun _ => hp.bind fun _ =>
      (follows_expect (by nofun)).bind fun _ => follows_pure _

theorem follows_ifOf (hc : cond.Follows cond') (hp : program.Follows program') :
    (ifOf cond program).Follows (Phrase.ifOf cond' program') := by
  refine (follows_expect (by nofun)).bind fun _ => hc.bind fun _ =>
    (follows_expect (by nofun)).bind fun _ => hp.bind fun _ => follows_current_bind fun t => ?_
  split
  · next ht =>
    exact followsBehind_advance_bind (by rw [ht]; nofun) <|
      hp.bind fun _ => (follows_expect (by nofun)).bind fun _ => follows_pure _
  · exact ((follows_expect (by nofun)).bind fun _ => follows_pure _).behind t

theorem follows_skip : skip.Follows Phrase.skip :=
  (follows_expect (by nofun)).bind fun _ => (follows_expect (by nofun)).bind fun _ =>
    follows_pure _

theorem follows_assignOf (h : arith.Follows arith') :
    (assignOf arith).Follows (Phrase.assignOf arith') := by
  refine (follows_expect (by nofun)).bind fun target => ?_
  cases target.text? with
  | some x =>
    exact (follows_expect (by nofun)).bind fun _ => h.bind fun _ =>
      (follows_expect (by nofun)).bind fun _ => follows_pure _
  | none => exact follows_fail _

/-- The phrase always asks for the second token, the walk only behind a name, where there is a token
between the position and the end. -/
theorem follows_statementOf (ha : arith.Follows arith') (hc : cond.Follows cond')
    (hp : program.Follows program') :
    (statementOf arith cond program).Follows (Phrase.statementOf arith' cond' program') := by
  refine follows_current_bind fun t ts p ahead hahead hhead => ?_
  have hfail : (fail (.noStatement t) : Walk Stmt).FollowsAt _ ts p ahead :=
    follows_fail (.noStatement t) ts p ahead hahead
  cases hkind : t.kind with
  | keyword k =>
    cases k with
    | whileKw => exact (follows_whileOf hc hp ts p ahead hahead).congr (Phrase.peekSecond_bind _ _)
    | ifKw => exact (follows_ifOf hc hp ts p ahead hahead).congr (Phrase.peekSecond_bind _ _)
    | skipKw => exact (follows_skip ts p ahead hahead).congr (Phrase.peekSecond_bind _ _)
    | _ => exact hfail.congr (Phrase.peekSecond_bind _ _)
  | ident =>
    cases ahead with
    | nil =>
      rw [← hhead] at hkind
      cases hkind
    | cons u rest =>
      refine (followsAt_peek hahead).bind fun second n _ => ?_
      have hdrop := hahead.drop n
      by_cases hsecond : second.kind = .symbol .assign
      · simp only [if_pos hsecond]
        exact follows_assignOf ha ts _ _ hdrop
      · simp only [if_neg hsecond]
        exact follows_fail _ ts _ _ hdrop
  | _ => exact hfail.congr (Phrase.peekSecond_bind _ _)

end statements

theorem follows_programOf {statement : Walk Stmt} {statement' : Phrase Stmt}
    (h : statement.Follows statement')
    (hprogress : ∀ ts s n, statement' ts = .ok s n → 0 < n) :
    (programOf statement).Follows (Phrase.programOf statement') := by
  refine h.bind fun first => Follows.bind ?_ fun rest => follows_pure _
  have hmany : (Phrase.many Kind.startsStmt statement').map ([] ++ ·)
      = Phrase.many Kind.startsStmt statement' := by
    funext ts
    simp only [Phrase.map, List.nil_append]
    cases Phrase.many Kind.startsStmt statement' ts <;> rfl
  exact hmany ▸ follows_loop_many rfl h hprogress []

/-- A statement uses tokens, because it is one that is derived. -/
theorem progress_statement (d : Nat) (ts : List Token) (s : Stmt) (n : Nat)
    (h : Phrase.statement d ts = .ok s n) : 0 < n := by
  obtain ⟨us, rest, -, rfl, hs⟩ := Phrase.sound_statement d ts s n h
  exact hs.length_pos

theorem follows_statement (d : Nat) : (statement d).Follows (Phrase.statement d) := by
  induction d using Nat.strongRecOn with
  | _ d ih =>
    rw [statement_eq, Phrase.statement_eq]
    exact follows_statementOf (follows_arith d) (follows_nested fun b _ => follows_cond b)
      (follows_nested fun b hb => follows_programOf (ih b (by omega)) (progress_statement b))

theorem follows_program (d : Nat) : (program d).Follows (Phrase.program d) :=
  follows_programOf (follows_statement d) (progress_statement d)

theorem follows_outermost (d : Nat) : (outermost d).Follows (Phrase.outermost d) := by
  intro ts p ahead hahead
  have hprogram := follows_program d ts p ahead hahead
  have hresult := hprogram.result
  refine hprogram.relabel ?_ ?_
  · rw [outermost, Phrase.outermost]
    generalize program d ts p = walked at hresult
    obtain ⟨result, q, trail⟩ := walked
    obtain rfl : result = _ := hresult
    cases Phrase.program d ahead with
    | ok a n => rfl
    | fail f n => cases f <;> rfl
  · rw [Phrase.outermost]
    cases Phrase.program d ahead with
    | ok a n => rfl
    | fail f n => cases f <;> rfl

theorem follows_wholeProgram (d : Nat) : (wholeProgram d).Follows (Phrase.wholeProgram d) := by
  refine (follows_outermost d).bind fun p => follows_current_bind fun t => ?_
  split
  · exact (follows_pure p).behind t
  · exact (follows_fail _).behind t

/-! ## All nonterminals -/

/-- **The walk of a nonterminal follows its phrase**, from every position that something lies ahead
of. -/
theorem follows_phrase (d : Nat) (nt : Nonterminal) : (nt.walk d).Follows (nt.phrase d) := by
  have harith : (nested 3 arith d).Follows _ := follows_nested fun b _ => follows_arith b
  have hcond : (nested 3 cond d).Follows _ := follows_nested fun b _ => follows_cond b
  have hprogram : (nested 3 program d).Follows _ := follows_nested fun b _ => follows_program b
  cases nt with
  | wholeProgram => exact (follows_wholeProgram d).map _
  | program => exact (follows_program d).map _
  | statement => exact (follows_statement d).map _
  | whileDo => exact (follows_whileOf hcond hprogram).map _
  | ifThenElse => exact (follows_ifOf hcond hprogram).map _
  | skip => exact follows_skip.map _
  | assign => exact (follows_assignOf (follows_arith d)).map _
  | arith => exact (follows_arith d).map _
  | summand => exact (follows_summandOf harith).map _
  | factor => exact (follows_factorOf harith).map _
  | cond => exact (follows_cond d).map _
  | disjunct => exact (follows_chain rfl (follows_conjunct d)).map _
  | conjunct => exact (follows_conjunct d).map _
  | comparison => exact (follows_comparisonOf (follows_arith d)).map _

end Walk

end WhileFrontend
