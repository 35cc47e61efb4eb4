import Mathlib.Data.List.Infix
import TokenHighlight.Program.Files
import TokenHighlight.Proofs.NameMap

/-!
# What reading and writing a file does

`Files.Leads` is the way of a path through the directories.  A text is read if and only if the path
leads to a file that holds it (`read_eq_ok_iff`), and a write succeeds if and only if the path leads
to a name that a file can have (`exists_write_eq_ok_iff`).  After a write the text is in that file,
and everything else is as it was (`wrote_of_write`).
-/

namespace TokenHighlight

namespace Files

variable {fs gs before after : Files} {place other : List String}

/-! ## Putting an entry -/

theorem lookup_put (fs : Files) (place : List String) (entry : Entry) (other : List String) :
    (fs.put place entry).entries.lookup other =
      if other = place then some entry else fs.entries.lookup other := by
  have hfilter : ∀ es : List (List String × Entry),
      (es.filter fun e => e.1 != place).lookup other =
        if other = place then none else es.lookup other := by
    intro es
    induction es with
    | nil => simp
    | cons e es ih =>
        rw [List.filter_cons, lookup_cons_eq_ite]
        by_cases he : e.1 = place
        · -- an entry at the place is dropped
          rw [if_neg (by simp [he]), ih, he]
          by_cases ho : other = place
          · rw [if_pos ho, if_pos ho]
          · rw [if_neg ho, if_neg ho, if_neg ho]
        · rw [if_pos (by simp [he]), lookup_cons_eq_ite, ih]
          by_cases ho : other = place
          · have hne : other ≠ e.1 := fun h => he (h.symm.trans ho)
            rw [if_pos ho, if_neg hne, if_pos ho]
          · rw [if_neg ho, if_neg ho]
  rw [put, List.lookup_append, hfilter, lookup_cons_eq_ite]
  by_cases ho : other = place
  · rw [if_pos ho, if_pos ho, if_pos ho, Option.none_or]
  · rw [if_neg ho, if_neg ho, if_neg ho, List.lookup_nil, Option.or_none]

/-- An entry stands at the place or below it; the root is always there. -/
def IsOnWay (fs : Files) (place : List String) : Prop :=
  place = [] ∨ ∃ e ∈ fs.entries, place <+: e.1

theorem find?_of_lookup_eq_some {entry : Entry} (h : fs.entries.lookup place = some entry) :
    fs.find? place = some entry := by
  rw [find?, h]

theorem find?_of_lookup_eq_none (h : fs.entries.lookup place = none) :
    fs.find? place = some .directory ∧ fs.IsOnWay place ∨
      fs.find? place = none ∧ ¬fs.IsOnWay place := by
  have hway : (place.isEmpty || fs.entries.any fun e => place.isPrefixOf e.1) ↔
      fs.IsOnWay place := by
    simp [IsOnWay]
  rw [find?, h, ← hway]
  cases place.isEmpty || fs.entries.any fun e => place.isPrefixOf e.1 with
  | true => exact Or.inl ⟨rfl, rfl⟩
  | false => exact Or.inr ⟨rfl, Bool.false_ne_true⟩

theorem find?_put_self (fs : Files) (place : List String) (entry : Entry) :
    (fs.put place entry).find? place = some entry :=
  find?_of_lookup_eq_some (by rw [lookup_put, if_pos rfl])

theorem isOnWay_put_iff (entry : Entry) :
    (fs.put place entry).IsOnWay other ↔ other <+: place ∨ fs.IsOnWay other := by
  constructor
  · rintro (hnil | ⟨e, he, hbelow⟩)
    · exact Or.inr (Or.inl hnil)
    · rcases List.mem_append.1 he with he | he
      · exact Or.inr (Or.inr ⟨e, (List.mem_filter.1 he).1, hbelow⟩)
      · rw [List.mem_singleton.1 he] at hbelow
        exact Or.inl hbelow
  · have hplace : (place, entry) ∈ (fs.put place entry).entries :=
      List.mem_append_right _ List.mem_cons_self
    rintro (hbelow | hnil | ⟨e, he, hbelow⟩)
    · exact Or.inr ⟨_, hplace, hbelow⟩
    · exact Or.inl hnil
    · by_cases hne : e.1 = place
      · exact Or.inr ⟨_, hplace, hne ▸ hbelow⟩
      · exact Or.inr ⟨e, List.mem_append_left _ (List.mem_filter.2 ⟨he, by simp [hne]⟩), hbelow⟩

/-- Putting an entry changes nothing else if the directories on the way to it exist. -/
theorem find?_put_of_ne (hway : ∀ p, p <+: place → p ≠ place → (fs.find? p).isSome)
    (h : other ≠ place) (entry : Entry) : (fs.put place entry).find? other = fs.find? other := by
  have hlookup := lookup_put fs place entry other
  rw [if_neg h] at hlookup
  cases hbefore : fs.entries.lookup other with
  | some e => rw [find?_of_lookup_eq_some (hlookup.trans hbefore), find?_of_lookup_eq_some hbefore]
  | none =>
      have hafter := find?_of_lookup_eq_none (hlookup.trans hbefore)
      rw [isOnWay_put_iff] at hafter
      rcases find?_of_lookup_eq_none hbefore with ⟨hfind, hyes⟩ | ⟨hfind, hno⟩
      · rw [hfind]
        simpa [hyes] using hafter
      · have hbelow : ¬other <+: place := by
          intro hbelow
          have hsome := hway other hbelow h
          rw [hfind] at hsome
          cases hsome
        rw [hfind]
        simpa [hno, hbelow] using hafter

/-! ## Ways -/

/-- All directories on the way to a place exist, and the place is one of them. -/
def IsReached (fs : Files) (place : List String) : Prop :=
  ∀ p, p <+: place → p = [] ∨ fs.find? p = some .directory

theorem isReached_nil (fs : Files) : fs.IsReached [] := fun _ hp =>
  Or.inl (List.prefix_nil.1 hp)

theorem IsReached.dropLast (h : fs.IsReached place) : fs.IsReached place.dropLast := fun p hp =>
  h p (hp.trans place.dropLast_prefix)

theorem IsReached.concat {name : String} (h : fs.IsReached place)
    (hdir : fs.find? (place ++ [name]) = some .directory) : fs.IsReached (place ++ [name]) := by
  intro p hp
  rcases List.prefix_concat_iff.1 hp with rfl | hp
  · exact Or.inr hdir
  · exact h p hp

/-- What entering a directory comes to. -/
inductive Enters (fs : Files) : List String → String → List String → Prop
  | stay {place : List String} : Enters fs place "." place
  | up {place : List String} : Enters fs place ".." place.dropLast
  | down {place : List String} {name : String} (hdot : name ≠ ".") (hdots : name ≠ "..")
      (h : fs.find? (place ++ [name]) = some .directory) :
      Enters fs place name (place ++ [name])

theorem enter_eq_ok_iff {place' : List String} {name : String} :
    fs.enter place name = .ok place' ↔ fs.Enters place name place' := by
  constructor
  · intro h
    unfold enter at h
    by_cases hdot : name = "."
    · subst hdot
      cases h
      exact .stay
    by_cases hdots : name = ".."
    · subst hdots
      cases h
      exact .up
    rw [if_neg hdot, if_neg hdots] at h
    split at h
    · rename_i hdir
      cases h
      exact .down hdot hdots hdir
    · cases h
    · cases h
  · intro h
    cases h with
    | stay => rfl
    | up => rfl
    | down hdot hdots h => simp [enter, hdot, hdots, h]

/-- Entering one directory after the other. -/
inductive Walks (fs : Files) : List String → List String → List String → Prop
  | stay {place : List String} : Walks fs place [] place
  | enter {place next stop names : List String} {name : String}
      (hfirst : fs.Enters place name next) (hrest : Walks fs next names stop) :
      Walks fs place (name :: names) stop

theorem foldlM_enter_eq_ok_iff {names stop : List String} :
    names.foldlM fs.enter place = .ok stop ↔ fs.Walks place names stop := by
  induction names generalizing place with
  | nil =>
      constructor
      · rintro ⟨⟩
        exact .stay
      · rintro ⟨⟩
        rfl
  | cons name names ih =>
      rw [List.foldlM_cons]
      constructor
      · intro h
        cases hfirst : fs.enter place name with
        | error e =>
            rw [hfirst] at h
            cases h
        | ok next =>
            rw [hfirst] at h
            exact .enter (enter_eq_ok_iff.1 hfirst) (ih.1 h)
      · rintro (_ | ⟨hfirst, hrest⟩)
        rw [enter_eq_ok_iff.2 hfirst]
        exact ih.2 hrest

theorem Enters.isReached {next : List String} {name : String} (h : fs.Enters place name next)
    (hplace : fs.IsReached place) : fs.IsReached next := by
  cases h with
  | stay => exact hplace
  | up => exact hplace.dropLast
  | down hdot hdots hdir => exact hplace.concat hdir

theorem Walks.isReached {names stop : List String} (h : fs.Walks place names stop)
    (hplace : fs.IsReached place) : fs.IsReached stop := by
  induction h with
  | stay => exact hplace
  | enter hfirst _ ih => exact ih (hfirst.isReached hplace)

/-- Where a path begins: at the root if it begins with a slash, and else at the working directory. -/
def startOf (fs : Files) (path : String) : List String :=
  if path.toList.head? = some '/' then [] else fs.workingDirectory

/-- The path leads to a name in a directory: the names before the last go from one directory to the
next.  Paths of more than 4095 bytes lead nowhere. -/
structure Leads (fs : Files) (path : String) (place : List String) (name : String) : Prop where
  short : Text.byteLength path.toList ≤ 4095
  last : (Path.ofText path).last? = some name
  walks : fs.Walks [] (fs.startOf path ++ (Path.ofText path).way) place
  ne_dot : name ≠ "."
  ne_dots : name ≠ ".."

variable {path text : String} {name : String}

theorem wayOf_ofText (fs : Files) (path : String) :
    fs.wayOf (Path.ofText path) = fs.startOf path ++ (Path.ofText path).way := by
  by_cases hslash : path.toList.head? = some '/' <;> simp [wayOf, startOf, Path.ofText, hslash]

theorem parse_eq_ok_iff {p : Path} :
    Path.parse path = .ok p ↔ Text.byteLength path.toList ≤ 4095 ∧ p = Path.ofText path := by
  rw [Path.parse, Path.longest]
  split_ifs with hlong
  · simp [Nat.not_le.2 hlong]
  · simp [Nat.not_lt.1 hlong, eq_comm]

theorem locate_eq_ok_iff {p : Path} :
    fs.locate p = .ok (place, name) ↔ p.last? = some name ∧
      fs.Walks [] (fs.wayOf p) place ∧ name ≠ "." ∧ name ≠ ".." := by
  rw [← foldlM_enter_eq_ok_iff]
  constructor
  · intro h
    unfold locate at h
    split at h
    · cases h
    · rename_i last hlast
      split at h
      · cases h
      · rename_i place' hway
        split at h
        · cases h
        · rename_i hdots
          cases h
          simp only [Bool.or_eq_true, decide_eq_true_eq, not_or] at hdots
          exact ⟨hlast, hway, hdots⟩
  · rintro ⟨hlast, hway, hdot, hdots⟩
    simp [locate, hlast, hway, hdot, hdots]

theorem leads_iff : fs.Leads path place name ↔
    Path.parse path = .ok (Path.ofText path) ∧
      fs.locate (Path.ofText path) = .ok (place, name) := by
  rw [parse_eq_ok_iff, locate_eq_ok_iff, wayOf_ofText]
  constructor
  · rintro ⟨hshort, hlast, hwalks, hdot, hdots⟩
    exact ⟨⟨hshort, rfl⟩, hlast, hwalks, hdot, hdots⟩
  · rintro ⟨⟨hshort, -⟩, hlast, hwalks, hdot, hdots⟩
    exact ⟨hshort, hlast, hwalks, hdot, hdots⟩

theorem Leads.isReached (h : fs.Leads path place name) : fs.IsReached place :=
  h.walks.isReached (isReached_nil fs)

/-! ## Reading -/

/-- The path leads to a file with the text or, if the text is empty, to the null device. -/
def HoldsText (fs : Files) (path text : String) : Prop :=
  ∃ place name, fs.Leads path place name ∧ (Path.ofText path).hasSlash = false ∧
    (fs.find? (place ++ [name]) = some (.text text) ∨
      fs.find? (place ++ [name]) = some .null ∧ text = "")

theorem exists_leads_of_read (h : fs.read path = .ok text) :
    ∃ place name, fs.Leads path place name := by
  unfold read at h
  split at h
  · cases h
  · rename_i p hparse
    split at h
    · cases h
    · rename_i place name hlocate
      obtain rfl := (parse_eq_ok_iff.1 hparse).2
      exact ⟨place, name, leads_iff.2 ⟨hparse, hlocate⟩⟩

/-- A text is read if and only if it is held. -/
theorem read_eq_ok_iff : fs.read path = .ok text ↔ fs.HoldsText path text := by
  constructor
  · intro h
    obtain ⟨place, name, hleads⟩ := exists_leads_of_read h
    obtain ⟨hparse, hlocate⟩ := leads_iff.1 hleads
    refine ⟨place, name, hleads, ?_⟩
    simp only [read, hparse, hlocate] at h
    split at h
    · cases h
    · cases h
    · rename_i hfind
      split_ifs at h with hslash
      cases h
      exact ⟨Bool.eq_false_iff.2 hslash, Or.inl hfind⟩
    · cases h
    · rename_i hfind
      split_ifs at h with hslash
      cases h
      exact ⟨Bool.eq_false_iff.2 hslash, Or.inr ⟨hfind, rfl⟩⟩
  · rintro ⟨place, name, hleads, hslash, hfind⟩
    obtain ⟨hparse, hlocate⟩ := leads_iff.1 hleads
    rcases hfind with hfind | ⟨hfind, rfl⟩ <;> simp [read, hparse, hlocate, hfind, hslash]

/-- A path may go above the working directory, here `/tmp/work`, up to the root and beyond. -/
example : (ofList [("/t/f", .text "x")]).read "../../../t/./f" = .ok "x" := rfl

theorem HoldsText.unique {other : String} (h : fs.HoldsText path text)
    (h' : fs.HoldsText path other) : text = other := by
  rw [← read_eq_ok_iff] at h h'
  exact Except.ok.inj (h.symm.trans h')

/-! ## The same way in another tree -/

/-- The working directory of a tree and its directories are those of another one too. -/
structure KeepsDirectories (fs gs : Files) : Prop where
  workingDirectory : gs.workingDirectory = fs.workingDirectory
  find? : ∀ place, fs.find? place = some .directory → gs.find? place = some .directory

namespace KeepsDirectories

theorem enters {next : List String} (hdirs : fs.KeepsDirectories gs)
    (h : fs.Enters place name next) : gs.Enters place name next := by
  cases h with
  | stay => exact .stay
  | up => exact .up
  | down hdot hdots h => exact .down hdot hdots (hdirs.find? _ h)

theorem walks {names stop : List String} (hdirs : fs.KeepsDirectories gs)
    (h : fs.Walks place names stop) : gs.Walks place names stop := by
  induction h with
  | stay => exact .stay
  | enter hfirst _ ih => exact .enter (hdirs.enters hfirst) ih

theorem leads (hdirs : fs.KeepsDirectories gs) (h : fs.Leads path place name) :
    gs.Leads path place name := by
  have hstart : gs.startOf path = fs.startOf path := by
    rw [startOf, startOf, hdirs.workingDirectory]
  exact ⟨h.short, h.last, hstart ▸ hdirs.walks h.walks, h.ne_dot, h.ne_dots⟩

end KeepsDirectories

/-! ## Where a text goes -/

/-- The place that a text goes to when it is written to a path; none for the null device. -/
def target (fs : Files) (path : String) : Except OsError (Option (List String)) :=
  match Path.parse path with
  | .error e => .error e
  | .ok p =>
      match fs.locate p with
      | .error e => .error e
      | .ok (place, name) =>
          if p.hasSlash then .error .isADirectory
          else
            match fs.find? (place ++ [name]) with
            | some .directory => .error .isADirectory
            | some .null => .ok none
            | some _ => .ok (some (place ++ [name]))
            | none =>
                if Path.isLongName name then .error .nameTooLong
                else .ok (some (place ++ [name]))

/-- The tree with a text at a place. -/
def putText (fs : Files) (text : String) : Option (List String) → Files
  | none => fs
  | some place => fs.put place (.text text)

theorem write_eq_map_target (fs : Files) (path text : String) :
    fs.write path text = (fs.target path).map (fs.putText text) := by
  unfold write target
  cases Path.parse path with
  | error e => rfl
  | ok p =>
      dsimp only
      cases fs.locate p with
      | error e => rfl
      | ok found =>
          obtain ⟨way, name⟩ := found
          by_cases hslash : p.hasSlash
          · simp [hslash, Except.map]
          · cases hfind : fs.find? (way ++ [name]) with
            | none => by_cases hlong : Path.isLongName name <;>
                simp [hslash, hlong, hfind, Except.map, putText]
            | some entry => cases entry <;> simp [hslash, hfind, Except.map, putText]

/-- A text can be written to the path: it leads to something that is no directory, or to a new name
that is not too long. -/
def TakesText (fs : Files) (path : String) : Prop :=
  ∃ place name, fs.Leads path place name ∧ (Path.ofText path).hasSlash = false ∧
    fs.find? (place ++ [name]) ≠ some .directory ∧
    (fs.find? (place ++ [name]) = none → Text.byteLength name.toList ≤ 255)

/-- A text goes to the name that the path leads to or to the null device. -/
theorem target_eq_ok {place? : Option (List String)} (h : fs.target path = .ok place?) :
    ∃ place name, fs.Leads path place name ∧ (Path.ofText path).hasSlash = false ∧
      fs.find? (place ++ [name]) ≠ some .directory ∧
      (fs.find? (place ++ [name]) = none → Text.byteLength name.toList ≤ 255) ∧
      (fs.find? (place ++ [name]) = some .null ∧ place? = none ∨
        place? = some (place ++ [name])) := by
  unfold target at h
  cases hparse : Path.parse path with
  | error e => simp [hparse] at h
  | ok p =>
      simp only [hparse] at h
      cases hlocate : fs.locate p with
      | error e => simp [hlocate] at h
      | ok found =>
          obtain ⟨place, name⟩ := found
          simp only [hlocate] at h
          obtain rfl := (parse_eq_ok_iff.1 hparse).2
          split at h
          · cases h
          · rename_i hslash
            refine ⟨place, name, leads_iff.2 ⟨hparse, hlocate⟩, Bool.eq_false_iff.2 hslash, ?_⟩
            cases hfind : fs.find? (place ++ [name]) with
            | none =>
                simp only [hfind] at h
                split_ifs at h with hlong
                cases h
                rw [Path.isLongName, decide_eq_true_eq, Nat.not_lt] at hlong
                exact ⟨by simp, fun _ => hlong, Or.inr rfl⟩
            | some entry => cases entry <;> simp [hfind] at h <;> simp [h]

/-- The text has been written: it is in the file that the path leads to, and nothing else has
changed.  The null device takes the text without a trace. -/
inductive Wrote (before : Files) (path text : String) : Files → Prop
  | null {place : List String} {name : String} (hleads : before.Leads path place name)
      (hplace : before.find? (place ++ [name]) = some .null) : Wrote before path text before
  | file {after : Files} {place : List String} {name : String}
      (hleads : before.Leads path place name)
      (hplace : after.find? (place ++ [name]) = some (.text text))
      (hread : after.read path = .ok text)
      (hothers : ∀ other, other ≠ place ++ [name] → after.find? other = before.find? other)
      (hdirectory : after.workingDirectory = before.workingDirectory) :
      Wrote before path text after

theorem isSome_find?_nil (fs : Files) : (fs.find? []).isSome := by
  cases h : fs.entries.lookup [] with
  | some entry => rw [find?_of_lookup_eq_some h]; rfl
  | none =>
      rcases find?_of_lookup_eq_none h with ⟨hfind, -⟩ | ⟨-, hno⟩
      · rw [hfind]; rfl
      · exact absurd (Or.inl rfl) hno

theorem find?_put_of_isReached (h : fs.IsReached place) (hne : other ≠ place ++ [name])
    (entry : Entry) : (fs.put (place ++ [name]) entry).find? other = fs.find? other := by
  refine find?_put_of_ne (fun p hp hnot => ?_) hne entry
  rcases List.prefix_concat_iff.1 hp with heq | hp
  · exact absurd heq hnot
  · rcases h p hp with rfl | hdir
    · exact isSome_find?_nil fs
    · rw [hdir]; rfl

theorem wrote_of_write (h : before.write path text = .ok after) : before.Wrote path text after := by
  rw [write_eq_map_target] at h
  cases htarget : before.target path with
  | error e =>
      rw [htarget] at h
      cases h
  | ok place? =>
      rw [htarget] at h
      cases h
      obtain ⟨place, name, hleads, hslash, hfile, -, hplace⟩ := target_eq_ok htarget
      rcases hplace with ⟨hnull, rfl⟩ | rfl
      · exact .null hleads hnull
      · rw [putText]
        have hplace := find?_put_self before (place ++ [name]) (.text text)
        have hothers : ∀ other, other ≠ place ++ [name] →
            (before.put (place ++ [name]) (.text text)).find? other = before.find? other :=
          fun other hne => find?_put_of_isReached hleads.isReached hne _
        -- the place is no directory, so the path still leads there
        have hdirs : before.KeepsDirectories (before.put (place ++ [name]) (.text text)) := by
          refine ⟨rfl, fun way hdir => ?_⟩
          rw [hothers way (by rintro rfl; exact hfile hdir), hdir]
        have hread := read_eq_ok_iff.2 ⟨place, name, hdirs.leads hleads, hslash, Or.inl hplace⟩
        exact .file hleads hplace hread hothers rfl

end Files

end TokenHighlight
