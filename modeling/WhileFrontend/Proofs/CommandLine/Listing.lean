import Mathlib.Data.List.Forall2
import WhileFrontend.CommandLine.Folder
import WhileFrontend.Proofs.CommandLine.Stages
import WhileFrontend.Proofs.Parsing.Reports
import WhileFrontend.Proofs.Token.Shown

/-!
# Token listings

A request for the tokens of a text prints one line for each of them (`splitLines_printed`). Since a
token is known by its shown form, the listing determines the tokens (`run_listing`): the lines of
the listing are the shown tokens, and the listing without tokens has a line that is empty.
-/

namespace WhileFrontend.CommandLine

open Text

/-! ## Lines of tokens -/

/-- The text is the shown form of the token, which is of a known kind. -/
def IsLineOf (t : Token) (line : String) : Prop :=
  t.kind ∈ Kind.known ∧ t.shown = .ok line

theorem leftUnique_isLineOf : Relator.LeftUnique IsLineOf :=
  fun _ _ _ ht hu => Token.shown_inj ht.1 hu.1 ht.2 hu.2

variable {ts : List Token} {lines : List String}

theorem onOneLine_of_isLineOf (h : List.Forall₂ IsLineOf ts lines) :
    ∀ l ∈ lines.map String.toList, OnOneLine l ∧ 'T' ∈ l := by
  induction h with
  | nil => exact List.forall_mem_nil _
  | cons ht _ ih => exact List.forall_mem_cons.mpr ⟨Token.onOneLine_shown ht.1 ht.2, ih⟩

/-- The lines below each other, each of them ended, are told apart again. -/
theorem splitLines_printed (h : List.Forall₂ IsLineOf ts lines) (hne : ts ≠ []) :
    splitLines ("\n".intercalate lines ++ "\n").toList = lines.map String.toList := by
  have hlines : lines.map String.toList ≠ [] := by
    cases h with
    | nil => exact absurd rfl hne
    | cons => exact List.cons_ne_nil _ _
  rw [String.toList_append, String.toList_intercalate]
  exact splitLines_intercalate (fun l hl => (onOneLine_of_isLineOf h l hl).1) hlines

/-- No line of tokens is empty, so a listing tells whether there are any. -/
theorem splitLines_printed_ne (h : List.Forall₂ IsLineOf ts lines) (hne : ts ≠ []) :
    splitLines ("\n".intercalate lines ++ "\n").toList ≠ [[]] := by
  rw [splitLines_printed h hne]
  intro hempty
  have hmem := (onOneLine_of_isLineOf h [] (by simp [hempty])).2
  cases hmem

/-- The same lines come from the same tokens. -/
theorem eq_of_intercalate_eq {us : List Token} {lines' : List String}
    (h : List.Forall₂ IsLineOf ts lines) (h' : List.Forall₂ IsLineOf us lines')
    (heq : "\n".intercalate lines = "\n".intercalate lines') : ts = us := by
  have hempty : splitLines ("\n".intercalate [] ++ "\n").toList = [[]] := by decide
  cases hts : ts with
  | nil =>
    subst hts
    cases h
    by_contra hus
    refine splitLines_printed_ne h' (Ne.symm hus) ?_
    rw [← heq, hempty]
  | cons t ts' =>
    have hne : ts ≠ [] := by simp [hts]
    cases hus : us with
    | nil =>
      subst hus
      cases h'
      refine absurd ?_ (splitLines_printed_ne h hne)
      rw [heq, hempty]
    | cons u us' =>
      have hlines : lines.map String.toList = lines'.map String.toList := by
        rw [← splitLines_printed h hne, heq, splitLines_printed h' (by simp [hus])]
      obtain rfl := List.map_injective_iff.mpr (fun _ _ => String.toList_inj.mp) hlines
      rw [← hts, ← hus]
      exact List.left_unique_forall₂' leftUnique_isLineOf h h'

/-! ## Listings of texts -/

/-- The request to print the tokens of a text. -/
def listing (pretty : Bool) (source : String) : Request :=
  { source, isText := true, pretty, tokensOnly := true }

/-- Tokens that can all be shown are put on lines. -/
theorem exists_mapM_shown (hshown : ∀ t ∈ ts, ∃ line, IsLineOf t line) :
    ∃ lines, ts.mapM Token.shown = .ok lines ∧ List.Forall₂ IsLineOf ts lines := by
  induction ts with
  | nil => exact ⟨[], rfl, .nil⟩
  | cons t ts ih =>
    obtain ⟨⟨line, ht⟩, hts⟩ := List.forall_mem_cons.mp hshown
    obtain ⟨lines, hmap, hlines⟩ := ih hts
    refine ⟨line :: lines, ?_, .cons ht hlines⟩
    rw [List.mapM_cons, ht.2, hmap]
    rfl

/-- Without a number that is too long, a text has a listing. -/
theorem exists_tokenLines {source : String}
    (h : ∀ n : Nat, .number n ∈ tokenize source → n < 10 ^ digitLimit) :
    ∃ lines, tokenLines source = .ok ("\n".intercalate lines) ∧
      List.Forall₂ IsLineOf (tokenize source) lines := by
  have hshown : ∀ t ∈ tokenize source, ∃ line, IsLineOf t line := by
    intro t ht
    have htext := isOfText_of_mem_tokenize t ht
    rcases htext.shown with ⟨line, hline⟩ | ⟨n, rfl, hn⟩
    · exact ⟨line, htext.kind_mem, hline⟩
    · exact absurd (h n ht) (Nat.not_lt.mpr hn)
  obtain ⟨lines, hmap, hlines⟩ := exists_mapM_shown hshown
  exact ⟨lines, by simp only [tokenLines, hmap], hlines⟩

variable {σ : Type} (disk : Disk (StateM σ)) (files : σ)

theorem run_listing_of_tokenLines {pretty : Bool} {source text : String}
    (h : tokenLines source = .ok text) :
    ((listing pretty source).run disk).run files
      = (.ok ((listing pretty source).printed text), files) := by
  have htext : (listing pretty source).textOf source = .ok text := h
  have hload : ((listing pretty source).load disk).run files = (.ok source, files) := by
    rw [run_load]
    rfl
  rw [run_request, hload]
  simp only [htext, run_deliver]
  rfl

/-- What is printed is the text between parts that do not depend on it. -/
theorem printed_listing_inj {pretty : Bool} {s t text text' : String}
    (h : (listing pretty s).printed text = (listing pretty t).printed text') : text = text' := by
  cases pretty with
  | true => simpa [Request.printed, listing, Request.title, String.append_assoc] using h
  | false => simpa [Request.printed, listing] using h

/--
**A listing determines the tokens.** For texts without a number of more than 4300 digits, what a
request for the tokens prints is the same exactly if the tokens are. Each token has a line of its
own, whatever counts as a line break: a text with tokens prints as many lines as it has tokens, in
their order, and no line is blank.
-/
theorem run_listing {s t : String}
    (hs : ∀ n : Nat, .number n ∈ tokenize s → n < 10 ^ digitLimit)
    (ht : ∀ n : Nat, .number n ∈ tokenize t → n < 10 ^ digitLimit) :
    (∀ pretty, ∃ out out',
      ((listing pretty s).run disk).run files = (.ok out, files) ∧
      ((listing pretty t).run disk).run files = (.ok out', files) ∧
      (out = out' ↔ tokenize s = tokenize t)) ∧
    ∃ out, ((listing false s).run disk).run files = (.ok out, files) ∧
      (tokenize s ≠ [] →
        (splitLines out.toList).length = (tokenize s).length ∧
        List.Forall₂ (fun t line => t.shown = .ok (String.ofList line))
          (tokenize s) (splitLines out.toList) ∧
        ∀ line ∈ splitLines out.toList, ∃ c ∈ line, isBlank c = false) := by
  obtain ⟨lines, htext, hlines⟩ := exists_tokenLines hs
  obtain ⟨lines', htext', hlines'⟩ := exists_tokenLines ht
  constructor
  · intro pretty
    refine ⟨_, _, run_listing_of_tokenLines disk files htext,
      run_listing_of_tokenLines disk files htext', ?_, ?_⟩
    · intro hout
      exact eq_of_intercalate_eq hlines hlines' (printed_listing_inj hout)
    · intro htokens
      have heq : tokenLines s = tokenLines t := by rw [tokenLines, tokenLines, htokens]
      rw [htext, htext'] at heq
      rw [Except.ok.inj heq]
      rfl
  · refine ⟨_, run_listing_of_tokenLines disk files htext, fun hne => ?_⟩
    have hsplit : splitLines ((listing false s).printed ("\n".intercalate lines)).toList
        = lines.map String.toList := splitLines_printed hlines hne
    rw [hsplit]
    refine ⟨?_, ?_, ?_⟩
    · rw [List.length_map, hlines.length_eq]
    · rw [List.forall₂_map_right_iff]
      exact hlines.imp fun t line h => by simpa using h.2
    · intro line hline
      exact ⟨'T', (onOneLine_of_isLineOf hlines line hline).2, by decide⟩

/-- A quote and a name that looks like its escape have listings of their own. -/
theorem run_listing_quotes :
    let s := "'7"
    let t := "x27 7"
    let files : Folder := .ofEntries []
    (∀ n : Nat, .number n ∈ tokenize s → n < 10 ^ digitLimit) ∧
    (∀ n : Nat, .number n ∈ tokenize t → n < 10 ^ digitLimit) ∧
    ∃ out out', ((listing true s).run Folder.disk).run files = (.ok out, files) ∧
      ((listing true t).run Folder.disk).run files = (.ok out', files) ∧ out ≠ out' := by
  intro s t files
  have hs : tokenize s = [.unknown '\'', .number 7] := by decide +kernel
  have ht : tokenize t = [.ident ['x', '2', '7'], .number 7] := by decide +kernel
  have hseven : 7 < 10 ^ digitLimit := by decide +kernel
  have hnumbers : ∀ n : Nat, .number n ∈ tokenize s → n < 10 ^ digitLimit := by
    intro n hn
    have hn : (n : Int) = 7 := by simpa [hs, Token.number, Token.unknown] using hn
    rwa [Int.natCast_inj.mp hn]
  have hnumbers' : ∀ n : Nat, .number n ∈ tokenize t → n < 10 ^ digitLimit := by
    intro n hn
    have hn : (n : Int) = 7 := by simpa [ht, Token.number, Token.ident] using hn
    rwa [Int.natCast_inj.mp hn]
  obtain ⟨out, out', hout, hout', hiff⟩ :=
    (run_listing Folder.disk files hnumbers hnumbers').1 true
  refine ⟨hnumbers, hnumbers', out, out', hout, hout', fun heq => ?_⟩
  have htokens := hiff.mp heq
  rw [hs, ht] at htokens
  exact absurd htokens (by decide)

end WhileFrontend.CommandLine
