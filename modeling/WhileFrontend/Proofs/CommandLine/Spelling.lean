import Mathlib.Data.List.TakeWhile
import WhileFrontend.CommandLine.Folder
import WhileFrontend.Proofs.CommandLine.Stages

/-!
# Spellings of a request

The same request can be spelled in many ways: letters one by one or in clusters, long names in full
or cut short, a file's name in the same word or in the next, flags more than once, and the source
anywhere between them. `Spells` says which words spell which settings, one group of words after the
other, and `IsCall` puts the source among them, or behind `--`, where it may be any text.

## Mechanism

Whatever has come before, the words of a group come to its settings (`ComesTo`), one after the other
(`Progress.set`). So every spelling comes to the same as its settings do, and of these it counts
which flags occur and which name is the last (`readArguments_of_isCall`).
-/

namespace WhileFrontend.CommandLine

/-! ## Settings and their spellings -/

/-- A switch that asks for something by itself: it takes no value and does not stop the run. -/
def Switch.IsFlag (s : Switch) : Prop :=
  s ≠ .help ∧ s ≠ .out

instance (s : Switch) : Decidable s.IsFlag :=
  inferInstanceAs (Decidable (s ≠ .help ∧ s ≠ .out))

/-- What the command line says beside the source. -/
inductive Setting where
  | flag (s : Switch)
  /-- The file to write to. -/
  | out (name : String)
  deriving DecidableEq, Repr

/-- The file's name that a setting gives. -/
def Setting.name? : Setting → Option String
  | flag _ => none
  | out name => some name

/-- The word does not start with a dash. -/
def IsPlain (word : String) : Prop :=
  word.toList.head? ≠ some '-'

instance (word : String) : Decidable (IsPlain word) :=
  inferInstanceAs (Decidable (word.toList.head? ≠ some '-'))

/-- The word can be a file's name behind a switch. -/
structure IsName (word : String) : Prop where
  nonempty : word ≠ ""
  plain : IsPlain word

/-- The characters are the start of the switch's long name and of no other. -/
def Switch.ShortenedTo (s : Switch) (cs : List Char) : Prop :=
  cs <+: s.longName ∧ ∀ s' : Switch, cs <+: s'.longName → s' = s

/-- The characters are the letters of the flags. -/
inductive AreLetters : List Char → List Switch → Prop where
  | nil : AreLetters [] []
  | cons {c : Char} {cs : List Char} {s : Switch} {flags : List Switch}
    (letter : s.letter? = some c) (flag : s.IsFlag) (rest : AreLetters cs flags) :
    AreLetters (c :: cs) (s :: flags)

/-- A word, or a word and the next one, that spells some settings. -/
inductive SpellsGroup : List String → List Setting → Prop where
  /-- As in `-ps`. -/
  | letters {cs : List Char} {flags : List Switch} (letters : AreLetters cs flags)
    (nonempty : cs ≠ []) :
    SpellsGroup [String.ofList ('-' :: cs)] (flags.map .flag)
  /-- As in `-psoF`. -/
  | lettersAttached {cs : List Char} {flags : List Switch} {name : String}
    (letters : AreLetters cs flags) (isName : IsName name)
    (attached : name.toList.head? ≠ some '=') :
    SpellsGroup [String.ofList ('-' :: (cs ++ 'o' :: name.toList))] (flags.map .flag ++ [.out name])
  /-- As in `-pso F`. -/
  | lettersNext {cs : List Char} {flags : List Switch} {name : String}
    (letters : AreLetters cs flags) (isName : IsName name) :
    SpellsGroup [String.ofList ('-' :: (cs ++ ['o'])), name] (flags.map .flag ++ [.out name])
  /-- As in `--pretty` or `--pre`. -/
  | long {s : Switch} {cs : List Char} (shortened : s.ShortenedTo cs) (flag : s.IsFlag) :
    SpellsGroup [String.ofList ('-' :: '-' :: cs)] [.flag s]
  /-- As in `--out=F`. -/
  | longAttached {cs : List Char} {name : String} (shortened : Switch.out.ShortenedTo cs)
    (isName : IsName name) :
    SpellsGroup [String.ofList ('-' :: '-' :: (cs ++ '=' :: name.toList))] [.out name]
  /-- As in `--out F`. -/
  | longNext {cs : List Char} {name : String} (shortened : Switch.out.ShortenedTo cs)
    (isName : IsName name) :
    SpellsGroup [String.ofList ('-' :: '-' :: cs), name] [.out name]

/-- Words that spell settings, group by group. -/
inductive Spells : List String → List Setting → Prop where
  | nil : Spells [] []
  | cons {group words : List String} {ss settings : List Setting} (first : SpellsGroup group ss)
    (rest : Spells words settings) : Spells (group ++ words) (ss ++ settings)

/-- The arguments spell the settings and the source: it stands between them, where it does not start
with a dash, or at the end behind `--`, where it may be any text. -/
inductive IsCall : List String → List Setting → String → Prop where
  | among {before after : List String} {ss settings : List Setting} {source : String}
    (front : Spells before ss) (plain : IsPlain source) (back : Spells after settings) :
    IsCall (before ++ source :: after) (ss ++ settings) source
  | last {before : List String} {ss : List Setting} {source : String} (front : Spells before ss) :
    IsCall (before ++ ["--", source]) ss source

/-- The request for a source with some settings: a flag counts if it occurs, and of the files' names
the last one counts. -/
def Request.ofSettings (source : String) (settings : List Setting) : Request where
  source := source
  isText := decide (.flag .string ∈ settings)
  out := (settings.filterMap Setting.name?).getLast?
  pretty := decide (.flag .pretty ∈ settings)
  tokensOnly := decide (.flag .tokens ∈ settings)

/-! ## One setting after the other -/

namespace Progress

/-- After a setting. -/
def set (p : Progress) : Setting → Progress
  | .flag s => p.flag s
  | .out name => p.output name

/-- Settings keep to themselves: of a list of them each flag and the last name are added to what the
words so far have come to. -/
theorem foldl_set (p : Progress) (settings : List Setting) :
    let q := settings.foldl set p
    q.source = p.source ∧ q.leftOver = p.leftOver ∧
      q.isText = (p.isText || decide (.flag .string ∈ settings)) ∧
      q.out = (settings.filterMap Setting.name?).getLast?.or p.out ∧
      q.pretty = (p.pretty || decide (.flag .pretty ∈ settings)) ∧
      q.tokensOnly = (p.tokensOnly || decide (.flag .tokens ∈ settings)) := by
  induction settings generalizing p with
  | nil => simp
  | cons s settings ih =>
    obtain ⟨hsource, hleft, htext, hout, hpretty, htokens⟩ := ih (p.set s)
    simp only [List.foldl_cons]
    cases s with
    | flag s => cases s <;> simp_all [set, flag, Setting.name?]
    | out name => simp_all [set, output, Setting.name?, List.getLast?_cons]

/-- A source and settings on both sides of it make the request. -/
theorem request_foldl_set (source : String) (ss settings : List Setting) :
    (settings.foldl set ((ss.foldl set {}).plain source)).request
      = .ok (Request.ofSettings source (ss ++ settings)) := by
  obtain ⟨hsource, hleft, htext, hout, hpretty, htokens⟩ := foldl_set {} ss
  generalize ss.foldl set {} = p at *
  obtain ⟨hsource', hleft', htext', hout', hpretty', htokens'⟩ :=
    foldl_set (p.plain source) settings
  generalize settings.foldl set (p.plain source) = q at *
  have hplain : p.plain source = { p with source := some source, atSource := true } := by
    rw [plain, hsource]
  rw [hplain] at hsource' hleft' htext' hout' hpretty' htokens'
  rw [request, hsource', hleft', hleft, htext', hout', hpretty', htokens', htext, hout, hpretty,
    htokens]
  simp only [Request.ofSettings, List.filterMap_append, List.getLast?_append, List.mem_append,
    Bool.decide_or, Bool.false_or, Option.or_none]
  rfl

end Progress

/-! ## Words by themselves -/

theorem IsPlain.ne {word : String} (h : IsPlain word) : word ≠ "--" := by
  rintro rfl
  exact h rfl

theorem classify_of_isPlain {word : String} (h : IsPlain word) :
    classify word = .ok (.plain word) := by
  rw [IsPlain] at h
  unfold classify
  split
  · next htext => exact absurd (by rw [htext]; rfl) h
  · next htext => exact absurd (by rw [htext]; rfl) h
  · rfl

theorem classifyAll_cons {word : String} {w : Word} (hne : word ≠ "--")
    (h : classify word = .ok w) (rest : List String) :
    classifyAll (word :: rest) = (classifyAll rest).map (w :: ·) := by
  rw [classifyAll, if_neg hne, h]
  cases classifyAll rest <;> rfl

namespace Switch

theorem ofLetter?_of_letter? {s : Switch} {c : Char} (h : s.letter? = some c) :
    ofLetter? c = some s ∧ c ≠ '-' ∧ c ≠ '=' := by
  cases s <;> cases h <;> decide

theorem mem_all (s : Switch) : s ∈ all := by
  cases s <;> decide

theorem notMem_longName (s : Switch) : '=' ∉ s.longName := by
  cases s <;> decide

theorem ShortenedTo.ne_nil {s : Switch} {cs : List Char} (h : s.ShortenedTo cs) : cs ≠ [] := by
  rintro rfl
  have hhelp : help = s := h.2 help (List.nil_prefix)
  have hout : out = s := h.2 out (List.nil_prefix)
  exact absurd (hhelp.trans hout.symm) (by decide)

theorem ShortenedTo.startingWith {s : Switch} {cs : List Char} (h : s.ShortenedTo cs) :
    startingWith cs = [s] := by
  have hsame : ∀ s' ∈ all, cs.isPrefixOf s'.longName = decide (s' = s) := by
    intro s' _
    rw [Bool.eq_iff_iff, List.isPrefixOf_iff_prefix, decide_eq_true_eq]
    exact ⟨h.2 s', fun hs => hs ▸ h.1⟩
  rw [Switch.startingWith, List.filter_congr hsame]
  cases s <;> rfl

theorem ShortenedTo.forall_ne {s : Switch} {cs : List Char} (h : s.ShortenedTo cs) :
    ∀ c ∈ cs, decide (c ≠ '=') = true := by
  intro c hc
  rw [decide_eq_true_eq]
  rintro rfl
  exact s.notMem_longName (h.1.subset hc)

end Switch

/-- A word of letters is classified by its first one. -/
theorem classify_letter {s : Switch} {c : Char} (h : s.letter? = some c) (cs : List Char) :
    String.ofList ('-' :: c :: cs) ≠ "--" ∧
      classify (String.ofList ('-' :: c :: cs)) = .ok (.short s (attachedText cs)) := by
  obtain ⟨hs, hdash, -⟩ := Switch.ofLetter?_of_letter? h
  constructor
  · intro hword
    have htext := congrArg String.toList hword
    rw [String.toList_ofList] at htext
    exact hdash (List.cons.inj (List.cons.inj htext).2).1
  · unfold classify
    rw [String.toList_ofList]
    split
    · next htext => exact absurd (List.cons.inj (List.cons.inj htext).2).1 hdash
    · next htext =>
      obtain ⟨rfl, rfl⟩ := List.cons.inj (List.cons.inj htext).2
      rw [hs]
    · next _ hno => exact absurd rfl (hno c cs)

/-- A word with the start of a long name is classified by what comes before an equals sign. -/
theorem classify_long {s : Switch} {cs : List Char} (h : s.ShortenedTo cs) :
    String.ofList ('-' :: '-' :: cs) ≠ "--" ∧
      classify (String.ofList ('-' :: '-' :: cs)) = .ok (.long s none) := by
  constructor
  · intro hword
    have htext := congrArg String.toList hword
    rw [String.toList_ofList] at htext
    exact h.ne_nil (List.cons.inj (List.cons.inj htext).2).2
  · have htake : cs.takeWhile (· ≠ '=') = cs := List.takeWhile_eq_self_iff.mpr h.forall_ne
    have hdrop : cs.dropWhile (· ≠ '=') = [] := List.dropWhile_eq_nil_iff.mpr h.forall_ne
    rw [classify, String.toList_ofList]
    simp only [htake, h.startingWith, valueAfterEquals, hdrop]

theorem classify_longAttached {s : Switch} {cs : List Char} (h : s.ShortenedTo cs)
    (value : List Char) :
    String.ofList ('-' :: '-' :: (cs ++ '=' :: value)) ≠ "--" ∧
      classify (String.ofList ('-' :: '-' :: (cs ++ '=' :: value))) = .ok (.long s value) := by
  constructor
  · intro hword
    have htext := congrArg String.toList hword
    rw [String.toList_ofList] at htext
    exact List.append_ne_nil_of_left_ne_nil h.ne_nil _ (List.cons.inj (List.cons.inj htext).2).2
  · have htake : (cs ++ '=' :: value).takeWhile (· ≠ '=') = cs := by
      rw [List.takeWhile_append_of_pos h.forall_ne, List.takeWhile_cons_of_neg (by decide),
        List.append_nil]
    have hdrop : (cs ++ '=' :: value).dropWhile (· ≠ '=') = '=' :: value := by
      rw [List.dropWhile_append_of_pos h.forall_ne, List.dropWhile_cons_of_neg (by decide)]
    rw [classify, String.toList_ofList]
    simp only [htake, h.startingWith, valueAfterEquals, hdrop]

/-! ## Words taken apart -/

/-- Text that is attached without an equals sign is taken like more letters. -/
theorem shortSwitch_attachedText (s : Switch) {cs : List Char} (h : cs.head? ≠ some '=') :
    shortSwitch s (attachedText cs) = cluster s cs := by
  cases cs with
  | nil =>
    rw [attachedText, shortSwitch, cluster]
  | cons c cs =>
    have htext : attachedText (c :: cs) = some (c :: cs) := by
      unfold attachedText
      split
      · next hnil => cases hnil
      · next htext =>
        obtain ⟨rfl, -⟩ := List.cons.inj htext
        exact absurd rfl h
      · rfl
    rw [htext, shortSwitch]

/-- Letters of flags are taken one by one, up to the end of the word or to the output switch. -/
theorem cluster_letters {cs : List Char} {flags : List Switch} (h : AreLetters cs flags)
    {s : Switch} (hs : s.IsFlag) :
    cluster s cs = .ok (s :: flags, .done) ∧
      ∀ tail, cluster s (cs ++ 'o' :: tail)
        = (cluster .out tail).map fun r => (s :: flags ++ r.1, r.2) := by
  induction h generalizing s with
  | nil =>
    refine ⟨?_, fun tail => ?_⟩
    · rw [cluster, withoutValue, if_neg hs.2]
    · rw [List.nil_append, cluster, if_neg hs.2]
      rfl
  | cons letter flag rest ih =>
    obtain ⟨hletter, -, -⟩ := Switch.ofLetter?_of_letter? letter
    obtain ⟨hdone, hout⟩ := ih flag
    refine ⟨?_, fun tail => ?_⟩
    · rw [cluster, if_neg hs.2]
      simp only [hletter, hdone]
      rfl
    · rw [List.cons_append, cluster, if_neg hs.2]
      simp only [hletter, hout]
      cases cluster .out tail <;> rfl

theorem cluster_out_name {name : String} (h : IsName name) :
    cluster .out name.toList = .ok ([], .value name) := by
  cases htext : name.toList with
  | nil => exact absurd (String.toList_eq_nil_iff.mp htext) h.nonempty
  | cons c cs =>
    have hdash : c :: cs ≠ ['-', '-'] := by
      rintro hdash
      exact h.plain (by rw [htext, hdash]; rfl)
    rw [cluster, if_pos rfl, withValue, if_pos rfl, attachedName, if_neg hdash, ← htext,
      String.ofList_toList]

theorem AreLetters.isFlag {cs : List Char} {flags : List Switch} (h : AreLetters cs flags) :
    ∀ s ∈ flags, s.IsFlag := by
  induction h with
  | nil => exact nofun
  | cons _ flag _ ih => exact List.forall_mem_cons.mpr ⟨flag, ih⟩

theorem AreLetters.head?_ne {cs : List Char} {flags : List Switch} (h : AreLetters cs flags) :
    cs.head? ≠ some '=' := by
  cases h with
  | nil => exact nofun
  | cons letter _ _ =>
    intro hhead
    exact (Switch.ofLetter?_of_letter? letter).2.2 (Option.some.inj hhead)

/-- A word of flags is one word of switches that leaves nothing to be done. -/
theorem classify_letters {cs : List Char} {flags : List Switch} (h : AreLetters cs flags)
    (hne : cs ≠ []) :
    String.ofList ('-' :: cs) ≠ "--" ∧ ∃ s text,
      classify (String.ofList ('-' :: cs)) = .ok (.short s text) ∧
        shortSwitch s text = .ok (flags, .done) := by
  cases h with
  | nil => exact absurd rfl hne
  | @cons c cs s flags letter flag rest =>
    obtain ⟨hword, hclass⟩ := classify_letter letter cs
    refine ⟨hword, s, attachedText cs, hclass, ?_⟩
    rw [shortSwitch_attachedText s rest.head?_ne, (cluster_letters rest flag).1]

/-- A word of flags and the letter of the output switch leaves what that switch leaves. -/
theorem classify_letters_out {cs : List Char} {flags : List Switch} (h : AreLetters cs flags)
    {tail : List Char} {r : Remainder} (htail : tail.head? ≠ some '=')
    (hout : cluster .out tail = .ok ([], r)) :
    String.ofList ('-' :: (cs ++ 'o' :: tail)) ≠ "--" ∧ ∃ s text,
      classify (String.ofList ('-' :: (cs ++ 'o' :: tail))) = .ok (.short s text) ∧
        shortSwitch s text = .ok (flags, r) := by
  cases h with
  | nil =>
    obtain ⟨hword, hclass⟩ := classify_letter (s := .out) rfl tail
    refine ⟨hword, .out, attachedText tail, hclass, ?_⟩
    rw [shortSwitch_attachedText .out htail, hout]
  | @cons c cs s flags letter flag rest =>
    obtain ⟨hword, hclass⟩ := classify_letter letter (cs ++ 'o' :: tail)
    refine ⟨hword, s, attachedText (cs ++ 'o' :: tail), hclass, ?_⟩
    have hhead : (cs ++ 'o' :: tail).head? ≠ some '=' := by
      rw [List.head?_append]
      intro heq
      cases cs with
      | nil => cases heq
      | cons c cs => exact rest.head?_ne heq
    rw [shortSwitch_attachedText s hhead, (cluster_letters rest flag).2, hout]
    exact congrArg (fun switches => Except.ok (switches, r)) (List.append_nil (s :: flags))

/-! ## Groups of words -/

section Taken

variable (p : Progress) {flags : List Switch} (h : ∀ s ∈ flags, s.IsFlag)

include h

theorem Progress.flags_of_isFlag :
    p.flags flags = .ok ((flags.map Setting.flag).foldl Progress.set p) := by
  have hhelp : Switch.help ∉ flags := fun hmem => (h _ hmem).1 rfl
  rw [Progress.flags, if_neg hhelp, List.foldl_map]
  rfl

theorem taken_done (rest : List Word) :
    scan.taken p (.ok (flags, .done)) rest
      = scan ((flags.map Setting.flag).foldl Progress.set p) rest := by
  rw [scan.taken, p.flags_of_isFlag h]
  rfl

theorem taken_value (name : String) (rest : List Word) :
    scan.taken p (.ok (flags, .value name)) rest
      = scan ((flags.map Setting.flag ++ [Setting.out name]).foldl Progress.set p) rest := by
  rw [scan.taken, p.flags_of_isFlag h, List.foldl_append]
  rfl

theorem taken_nextWord (name : String) (rest : List Word) :
    scan.taken p (.ok (flags, .nextWord)) (.plain name :: rest)
      = scan ((flags.map Setting.flag ++ [Setting.out name]).foldl Progress.set p) rest := by
  rw [scan.taken, p.flags_of_isFlag h, List.foldl_append]
  rfl

end Taken

/-- Whatever comes before them and whatever follows, the arguments come to the settings. -/
def ComesTo (args : List String) (settings : List Setting) : Prop :=
  ∃ words, (∀ rest, classifyAll (args ++ rest) = (classifyAll rest).map (words ++ ·)) ∧
    ∀ p rest, scan p (words ++ rest) = scan (settings.foldl Progress.set p) rest

namespace ComesTo

theorem nil : ComesTo [] [] := by
  refine ⟨[], fun rest => ?_, fun _ _ => rfl⟩
  rw [List.nil_append]
  cases classifyAll rest <;> rfl

theorem append {args args' : List String} {ss settings : List Setting} (h : ComesTo args ss)
    (h' : ComesTo args' settings) : ComesTo (args ++ args') (ss ++ settings) := by
  obtain ⟨words, hclass, hscan⟩ := h
  obtain ⟨words', hclass', hscan'⟩ := h'
  refine ⟨words ++ words', fun rest => ?_, fun p rest => ?_⟩
  · rw [List.append_assoc, hclass, hclass']
    cases classifyAll rest with
    | error m => rfl
    | ok after => exact congrArg Except.ok (List.append_assoc words words' after).symm
  · rw [List.append_assoc, hscan, hscan', List.foldl_append]

variable {word name : String} {w : Word} {settings : List Setting}

theorem ofWord (hne : word ≠ "--") (hclass : classify word = .ok w)
    (hscan : ∀ p rest, scan p (w :: rest) = scan (settings.foldl Progress.set p) rest) :
    ComesTo [word] settings :=
  ⟨[w], classifyAll_cons hne hclass, hscan⟩

theorem ofWordNext (hne : word ≠ "--") (hclass : classify word = .ok w) (hname : IsName name)
    (hscan : ∀ p rest, scan p (w :: .plain name :: rest)
      = scan (settings.foldl Progress.set p) rest) :
    ComesTo [word, name] settings := by
  refine ⟨[w, .plain name], fun rest => ?_, hscan⟩
  rw [List.cons_append, List.singleton_append, classifyAll_cons hne hclass,
    classifyAll_cons hname.plain.ne (classify_of_isPlain hname.plain)]
  cases classifyAll rest <;> rfl

end ComesTo

/-- A group of words comes to its settings. -/
theorem comesTo_of_spellsGroup {args : List String} {settings : List Setting}
    (h : SpellsGroup args settings) : ComesTo args settings := by
  have hnone : ∀ s ∈ ([] : List Switch), s.IsFlag := nofun
  cases h with
  | letters letters nonempty =>
    obtain ⟨hne, s, text, hclass, hswitch⟩ := classify_letters letters nonempty
    refine .ofWord hne hclass fun p rest => ?_
    rw [scan, hswitch, taken_done p letters.isFlag]
  | lettersAttached letters isName attached =>
    obtain ⟨hne, s, text, hclass, hswitch⟩ :=
      classify_letters_out letters attached (cluster_out_name isName)
    refine .ofWord hne hclass fun p rest => ?_
    rw [scan, hswitch, taken_value p letters.isFlag]
  | lettersNext letters isName =>
    have hhead : ([] : List Char).head? ≠ some '=' := by decide
    have hout : cluster .out [] = .ok ([], .nextWord) := rfl
    obtain ⟨hne, s, text, hclass, hswitch⟩ := classify_letters_out letters hhead hout
    refine .ofWordNext hne hclass isName fun p rest => ?_
    rw [scan, hswitch, taken_nextWord p letters.isFlag]
  | @long s cs shortened flag =>
    obtain ⟨hne, hclass⟩ := classify_long shortened
    have hflag : ∀ s' ∈ [s], s'.IsFlag := List.forall_mem_singleton.mpr flag
    refine .ofWord hne hclass fun p rest => ?_
    rw [scan, longSwitch, withoutValue, if_neg flag.2, taken_done p hflag]
    rfl
  | @longAttached cs name shortened isName =>
    obtain ⟨hne, hclass⟩ := classify_longAttached shortened name.toList
    have hname : withValue .out name.toList = .ok ([], .value name) := by
      rw [← cluster_out_name isName]
      cases htext : name.toList with
      | nil => exact absurd (String.toList_eq_nil_iff.mp htext) isName.nonempty
      | cons c cs => rfl
    refine .ofWord hne hclass fun p rest => ?_
    rw [scan, longSwitch, hname, taken_value p hnone]
    rfl
  | longNext shortened isName =>
    obtain ⟨hne, hclass⟩ := classify_long shortened
    refine .ofWordNext hne hclass isName fun p rest => ?_
    rw [scan, longSwitch, withoutValue, if_pos rfl, taken_nextWord p hnone]
    rfl

theorem comesTo_of_spells {args : List String} {settings : List Setting}
    (h : Spells args settings) : ComesTo args settings := by
  induction h with
  | nil => exact .nil
  | cons first _ ih => exact (comesTo_of_spellsGroup first).append ih

/-! ## Calls -/

/-- The arguments that spell a source and settings make the request for them. -/
theorem readArguments_of_isCall {args : List String} {settings : List Setting} {source : String}
    (h : IsCall args settings source) :
    readArguments args = .ok (Request.ofSettings source settings) := by
  cases h with
  | @among before after ss settings source front plain back =>
    obtain ⟨words, hclass, hscan⟩ := comesTo_of_spells front
    obtain ⟨words', hclass', hscan'⟩ := comesTo_of_spells back
    have hwords : classifyAll (before ++ source :: after) = .ok (words ++ .plain source :: words')
        := by
      have hafter : classifyAll after = .ok words' := by
        have hnil : (classifyAll []).map (words' ++ ·) = .ok (words' ++ []) := rfl
        rw [← List.append_nil after, hclass', hnil, List.append_nil]
      rw [hclass, classifyAll_cons plain.ne (classify_of_isPlain plain), hafter]
      rfl
    have hdone : scan {} (words ++ .plain source :: words')
        = .ok (settings.foldl Progress.set ((ss.foldl Progress.set {}).plain source)) := by
      rw [hscan, scan, ← List.append_nil words', hscan', scan]
    rw [readArguments, hwords]
    simp only [hdone, Progress.request_foldl_set]
  | @last before _ _ front =>
    obtain ⟨words, hclass, hscan⟩ := comesTo_of_spells front
    have hwords : classifyAll (before ++ ["--", source])
        = .ok (words ++ [.separator, .plain source]) := by
      rw [hclass, classifyAll, if_pos rfl]
      rfl
    have hdone : scan {} (words ++ [.separator, .plain source])
        = .ok ((settings.foldl Progress.set {}).plain source) := by
      have hsource : (settings.foldl Progress.set {}).source = none :=
        (Progress.foldl_set {} settings).1
      have hbelongs : ((settings.foldl Progress.set {}).atSource
          || ((none : Option String).isNone && !List.isEmpty [Word.plain source])) = true :=
        Bool.or_true _
      rw [hscan, scan, hsource, if_pos hbelongs, scan, scan]
    have hrequest := Progress.request_foldl_set source settings []
    rw [List.foldl_nil, List.append_nil] at hrequest
    rw [readArguments, hwords]
    simp only [hdone, hrequest]

/--
**Command lines that spell the same request.** Whatever words are used for the settings, in any
order and with the source at any place, or at the end behind `--`, the program runs the request for
that source in which those flags are set that occur, and the last name is the file to write to.
-/
theorem runProgram_of_isCall {args : List String} {settings : List Setting} {source : String}
    (h : IsCall args settings source) {m : Type → Type} [Monad m] (disk : Disk m)
    (console : Console) :
    runProgram disk args console = (do
      let outcome ← (Request.ofSettings source settings).run disk console
      return reportOf outcome) := by
  unfold runProgram
  rw [readArguments_of_isCall h]
  refine congrArg (bind _) (funext fun outcome => ?_)
  cases outcome <;> rfl

/-- A cluster with a name attached, a long name cut short, and a source that looks like a switch. -/
theorem runProgram_cluster :
    IsCall ["-psofirst", "--tok", "--out=a b", "-p", "--", "-x"]
      [.flag .pretty, .flag .string, .out "first", .flag .tokens, .out "a b", .flag .pretty] "-x" ∧
    runProgram Folder.disk ["-psofirst", "--tok", "--out=a b", "-p", "--", "-x"] = (do
      let outcome ← Request.run Folder.disk
        { source := "-x", isText := true, out := "a b", pretty := true, tokensOnly := true }
      return reportOf outcome) := by
  have hletters : AreLetters ['p', 's'] [.pretty, .string] :=
    .cons rfl (by decide) (.cons rfl (by decide) .nil)
  have hfirst : IsName "first" := ⟨by decide, by decide⟩
  have htokens : Switch.tokens.ShortenedTo ['t', 'o', 'k'] :=
    ⟨by decide, by rintro (_ | _) <;> decide⟩
  have hout : Switch.out.ShortenedTo ['o', 'u', 't'] := ⟨by decide, by rintro (_ | _) <;> decide⟩
  have hlast : IsName "a b" := ⟨by decide, by decide⟩
  have hpretty : AreLetters ['p'] [.pretty] := .cons rfl (by decide) .nil
  have hspells : Spells ["-psofirst", "--tok", "--out=a b", "-p"]
      [.flag .pretty, .flag .string, .out "first", .flag .tokens, .out "a b", .flag .pretty] :=
    .cons (.lettersAttached hletters hfirst (by decide)) (.cons (.long htokens (by decide))
      (.cons (.longAttached hout hlast) (.cons (.letters hpretty (by decide)) .nil)))
  have hcall : IsCall ["-psofirst", "--tok", "--out=a b", "-p", "--", "-x"] _ "-x" := .last hspells
  exact ⟨hcall, runProgram_of_isCall hcall Folder.disk .lenient⟩

end WhileFrontend.CommandLine
