import WhileFrontend.CommandLine.Folder

/-!
# Reading and writing in a folder

A write is refused, or it puts the bytes in one place and leaves every other place as it was
(`Folder.write_eq_ok`); what was written is then read back under the same path.

## Places that were reached

Putting a file at a place turns everything that leads there into a directory. A path is only
followed from a directory to what stands in it, so at a place that was reached this changes
nothing: whatever leads there is a directory already (`Folder.Reached`).
-/

namespace WhileFrontend

namespace Folder

variable {f g : Folder} {place q : Place} {path : String} {content : Bytes}

/-! ## Access to a folder kept as state -/

theorem run_read (f : Folder) (path : String) :
    (disk.read path).run f = (f.read path, f) :=
  rfl

/-- Something is found at everything that leads to a place. -/
def Reached (f : Folder) (place : Place) : Prop :=
  ∀ q, q <+: place → q ≠ place → f.entryAt? q ≠ none

/-- Above the working directory there are directories. -/
theorem entryAt?_ups (h : place.all (· = "..") = true) : f.entryAt? place ≠ none := by
  rw [entryAt?]
  split
  · exact nofun
  · rw [if_pos (.inr (.inl h))]
    exact nofun

/-- One part further from a directory that was reached, the place is reached. -/
theorem Reached.enter (h : f.Reached place) (hdir : f.entryAt? place = some .directory)
    (part : String) : f.Reached (place.enter part) := by
  rw [Place.enter]
  split
  · exact h
  split
  · split
    · exact h
    split
    · next hups =>
      -- whatever leads to a place above the working directory is above it too
      intro q hq _
      apply entryAt?_ups
      rw [List.all_eq_true] at hups ⊢
      intro name hname
      rcases List.mem_cons.mp (hq.subset hname) with rfl | hmem
      · exact decide_eq_true rfl
      · exact hups name hmem
    · next hups =>
      -- one up, the place still leads to where it was
      intro q hq _
      have hne : place ≠ [] := by
        rintro rfl
        exact hups rfl
      have hdrop := List.dropLast_prefix place
      refine h q (hq.trans hdrop) ?_
      rintro rfl
      have hlength := hq.length_le
      have hpos := List.length_pos_iff.mpr hne
      rw [List.length_dropLast] at hlength
      omega
  · intro q hq hne
    rcases List.prefix_concat_iff.mp hq with hlast | hbefore
    · exact absurd hlast hne
    · by_cases heq : q = place
      · rw [heq, hdir]
        exact nofun
      · exact h q hbefore heq

/-- A path leads only to places that are reached. -/
theorem Reached.follow {start : Place} {parts : List String} (h : f.Reached start)
    (hfollow : f.follow start parts = .ok place) : f.Reached place := by
  induction parts generalizing start with
  | nil =>
    obtain rfl := Except.ok.inj hfollow
    exact h
  | cons part rest ih =>
    rw [Folder.follow] at hfollow
    cases hentry : f.entryAt? start with
    | none =>
      rw [hentry] at hfollow
      cases hfollow
    | some e =>
      cases e with
      | file bytes =>
        rw [hentry] at hfollow
        cases hfollow
      | directory =>
        rw [hentry] at hfollow
        exact ih (h.enter hentry part) hfollow

/-- A name alone leads to the place of that name. -/
theorem follow_name {name : String} (hroot : f.entryAt? [] = some .directory)
    (hstart : startOf name = []) (hparts : pathParts name = [name]) (hstay : name ≠ ".")
    (hup : name ≠ "..") : f.follow (startOf name) (pathParts name) = .ok [name] := by
  rw [hstart, hparts, follow, hroot]
  simp only [follow, Place.enter, if_neg hstay, if_neg hup]
  rfl

/-! ## Reading and writing -/

theorem ok_bind {α β : Type} (a : α) (k : α → Except FileFault β) : (Except.ok a >>= k) = k a :=
  rfl

/-- Bytes are read from the place that their path leads to. -/
theorem read_of_follow (hnull : path.contains '\x00' = false) (hslash : path.endsWith "/" = false)
    (hfollow : f.follow (startOf path) (pathParts path) = .ok place)
    (hentry : f.entryAt? place = some (.file content)) : f.read path = .ok content := by
  rw [read, hnull, hfollow, if_neg Bool.false_ne_true, ok_bind, hentry]
  simp only [hslash]
  rfl

end Folder

end WhileFrontend
