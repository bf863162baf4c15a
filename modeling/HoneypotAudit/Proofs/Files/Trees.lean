import HoneypotAudit.Files.Tree
import HoneypotAudit.Proofs.Outcome
import Mathlib.Data.Set.Insert
import Mathlib.Order.Defs.Unbundled

/-!
# Growing file trees

Directories are made and files are written, and neither takes anything away.  `Grows written named`
is a preorder of trees that says so: directories stay, files stay files and keep their content
unless they are at a place that was written, and what is new has one of some names.  Making
directories and writing a file are along it (`grows_makeDirectories`, `grows_write`), and what was
written is found again (`find_write`).

Removing a directory takes exactly what is below it (`get?_removeBelow`).
-/

namespace HoneypotAudit.Files

open HoneypotAudit.Outcome

/-! ## Places on a way -/

@[simp]
lemma Location.follow_nil (l : Location) : l.follow [] = l :=
  rfl

lemma Location.follow_cons (l : Location) (part : String) (rest : List String) :
    l.follow (part :: rest) =
      Location.follow (if part = ".." then l.dropLast else l ++ [part]) rest :=
  rfl

lemma Location.follow_append (l : Location) (front rest : List String) :
    l.follow (front ++ rest) = Location.follow (l.follow front) rest :=
  List.foldl_append

/-- Without two points parts lead down. -/
lemma Location.follow_of_not_mem {l : Location} {parts : List String} (h : ".." ∉ parts) :
    l.follow parts = l ++ parts := by
  induction parts generalizing l with
  | nil => rw [Location.follow_nil, List.append_nil]
  | cons part rest ih =>
    rw [List.mem_cons, not_or] at h
    rw [Location.follow_cons, if_neg (Ne.symm h.1), ih h.2, List.append_assoc,
      List.singleton_append]

namespace Tree

variable {t t' : Tree} {l : Location} {name : String}

/-! ## Looking up -/

lemma lookUp_of_get? {e : Entry} (h : t.get? (l ++ [name]) = some e) :
    t.lookUp l name = .ok (some e) := by
  rw [lookUp, h]

lemma get?_of_lookUp {found : Option Entry} (h : t.lookUp l name = .ok found) :
    t.get? (l ++ [name]) = found := by
  rw [lookUp] at h
  split at h
  · next e he => rw [he, Except.ok.inj h]
  · next hnone =>
    split at h
    · cases h
    · rw [hnone, Except.ok.inj h]

/-! ## Growing -/

/-- A tree has grown: nothing is gone, no file has changed but at the written places, and what is
new has one of the names. -/
structure Grows (written : Set Location) (named : Set String) (t t' : Tree) : Prop where
  directory : ∀ {l}, t.get? l = some .directory → t'.get? l = some .directory
  file : ∀ {l content}, t.get? l = some (.file content) →
    ∃ content', t'.get? l = some (.file content') ∧ (l ∉ written → content' = content)
  new : ∀ {l name}, t.get? (l ++ [name]) = none → t'.get? (l ++ [name]) ≠ none → name ∈ named

variable {written written' : Set Location} {named named' : Set String}

instance : IsPreorder Tree (Grows written named) where
  refl t := ⟨fun h => h, fun h => ⟨_, h, fun _ => rfl⟩, fun h h' => absurd h h'⟩
  trans t t₁ t' h h' := by
    refine ⟨fun hl => h'.directory (h.directory hl), fun hl => ?_, fun {l name} hnone hsome => ?_⟩
    · obtain ⟨content₁, hl₁, hkeep₁⟩ := h.file hl
      obtain ⟨content', hl', hkeep'⟩ := h'.file hl₁
      exact ⟨content', hl', fun hplace => (hkeep' hplace).trans (hkeep₁ hplace)⟩
    · by_cases hnone₁ : t₁.get? (l ++ [name]) = none
      · exact h'.new hnone₁ hsome
      · exact h.new hnone hnone₁

lemma Grows.mono (h : Grows written named t t') (hwritten : written ⊆ written')
    (hnamed : named ⊆ named') : Grows written' named' t t' where
  directory := h.directory
  file hl := by
    obtain ⟨content', hl', hkeep⟩ := h.file hl
    exact ⟨content', hl', fun hplace => hkeep fun hmem => hplace (hwritten hmem)⟩
  new hnone hsome := hnamed (h.new hnone hsome)

/-- Where something was, something is. -/
lemma Grows.isSome_get? (h : Grows written named t t') {e : Entry} (hl : t.get? l = some e) :
    (t'.get? l).isSome := by
  cases e with
  | directory => rw [h.directory hl]; rfl
  | file content =>
    obtain ⟨content', hl', -⟩ := h.file hl
    rw [hl']
    rfl

lemma grows_put_directory (h : t.get? (l ++ [name]) = none) :
    Grows ∅ {name} t (t.put (l ++ [name]) .directory) := by
  have hother {l' : Location} {e : Entry} (hl' : t.get? l' = some e) :
      (t.put (l ++ [name]) .directory).get? l' = some e := by
    rwa [get?_put_of_ne]
    rintro rfl
    rw [h] at hl'
    cases hl'
  refine ⟨hother, fun hl' => ⟨_, hother hl', fun _ => rfl⟩, fun {l' name'} hnone hsome => ?_⟩
  by_cases hplace : l' ++ [name'] = l ++ [name]
  · exact (List.append_inj' hplace rfl).2 |> List.singleton_injective
  · rw [get?_put_of_ne hplace] at hsome
    exact absurd hnone hsome

lemma grows_put_file {content : Text.Bytes} (h : t.get? (l ++ [name]) ≠ some .directory) :
    Grows {l ++ [name]} {name} t (t.put (l ++ [name]) (.file content)) := by
  refine ⟨fun {l'} hl' => ?_, fun {l' content'} hl' => ?_, fun {l' name'} hnone hsome => ?_⟩
  · rwa [get?_put_of_ne]
    rintro rfl
    exact h hl'
  · by_cases hplace : l' = l ++ [name]
    · subst hplace
      exact ⟨content, get?_put_self (by simp), fun hmem => absurd rfl hmem⟩
    · exact ⟨content', by rwa [get?_put_of_ne hplace], fun _ => rfl⟩
  · by_cases hplace : l' ++ [name'] = l ++ [name]
    · exact (List.append_inj' hplace rfl).2 |> List.singleton_injective
    · rw [get?_put_of_ne hplace] at hsome
      exact absurd hnone hsome

/-! ## Walking -/

lemma walk_cons (t : Tree) (l : Location) (part : String) (rest : List String) :
    t.walk l (part :: rest) =
      if part = ".." then t.walk l.dropLast rest
      else
        match t.lookUp l part with
        | .ok (some .directory) => t.walk (l ++ [part]) rest
        | .ok (some (.file _)) => .error .notDirectory
        | .ok none => .error .missing
        | .error kind => .error kind :=
  rfl

/-- A walk goes on if it meets two points or a directory. -/
lemma walk_cons_eq_ok_iff {part : String} {rest : List String} {l' : Location} :
    t.walk l (part :: rest) = .ok l' ↔
      (part = ".." ∨ t.get? (l ++ [part]) = some .directory) ∧
        t.walk (if part = ".." then l.dropLast else l ++ [part]) rest = .ok l' := by
  rw [walk_cons]
  by_cases hup : part = ".."
  · simp [hup]
  · simp only [hup, if_false, false_or]
    rw [lookUp]
    cases t.get? (l ++ [part]) with
    | some e => cases e <;> simp
    | none => by_cases hlong : maxName < part.utf8ByteSize <;> simp [hlong]

/-- A walk that does not fail leads where its parts lead. -/
lemma eq_follow_of_walk {parts : List String} {l' : Location} (h : t.walk l parts = .ok l') :
    l' = l.follow parts := by
  induction parts generalizing l with
  | nil => exact (Except.ok.inj h).symm
  | cons part rest ih => exact ih (walk_cons_eq_ok_iff.mp h).2

/-- A walk leads through a grown tree as it did before. -/
lemma Grows.walk (h : Grows written named t t') {parts : List String} {l' : Location}
    (hwalk : t.walk l parts = .ok l') : t'.walk l parts = .ok l' := by
  induction parts generalizing l with
  | nil => exact hwalk
  | cons part rest ih =>
    obtain ⟨hpart, hrest⟩ := walk_cons_eq_ok_iff.mp hwalk
    exact walk_cons_eq_ok_iff.mpr ⟨hpart.imp_right h.directory, ih hrest⟩

/-! ## Making directories -/

/-- On the way only directories are made, where nothing is, and they have names from the way. -/
lemma grows_makeWay (room : Nat) (t : Tree) (made : Bool) (l : Location)
    (walked parts : List String) :
    Grows ∅ {name | name ∈ parts} t (t.makeWay room made l walked parts).tree := by
  induction parts generalizing t made l walked with
  | nil => exact refl_of _ t
  | cons part rest ih =>
    have hrest {t₁ : Tree} {made : Bool} {l : Location} {walked : List String} :
        Grows ∅ {name | name ∈ part :: rest} t₁ (t₁.makeWay room made l walked rest).tree :=
      (ih t₁ made l walked).mono (Set.Subset.refl ∅) fun _ => List.mem_cons_of_mem part
    rw [makeWay]
    split
    · exact hrest
    split
    · exact hrest
    · exact refl_of _ t
    · next hnone =>
      split
      · exact refl_of _ t
      · have hput : Grows ∅ {name | name ∈ part :: rest} t (t.put (l ++ [part]) .directory) :=
          (grows_put_directory (get?_of_lookUp hnone)).mono (Set.Subset.refl ∅)
            (Set.singleton_subset_iff.mpr List.mem_cons_self)
        exact trans_of _ hput hrest
    · exact refl_of _ t

/-- Making directories takes nothing away and changes no file. -/
theorem grows_makeDirectories (room : Nat) (t : Tree) (workingDirectory : Location) (p : Path) :
    Grows ∅ {name | name ∈ p.parts} t (t.makeDirectories room workingDirectory p).tree := by
  rw [makeDirectories]
  split
  · exact refl_of _ t
  · exact grows_makeWay room t false _ [] p.parts

/-! ## Finding -/

/-- What is under a name in a directory that the parts in front of it lead to. -/
lemma find_of_walk {start : Location} {parts : List String} {e : Entry}
    (hlast : parts.getLast? = some name) (hup : name ≠ "..")
    (hwalk : t.walk start parts.dropLast = .ok l) (hentry : t.get? (l ++ [name]) = some e) :
    t.find start parts = .ok e := by
  rw [find, hwalk, ok_bind, hlast]
  split
  · next hnone => cases hnone
  · next hpoints => exact absurd (Option.some.inj hpoints) hup
  · next hname =>
    obtain rfl := Option.some.inj hname
    rw [lookUp_of_get? hentry]
    rfl

/-! ## Writing -/

/-- Where a file can be written: under a name in a directory that the path leads into. -/
lemma placeFor_eq_ok {workingDirectory : Location} {p : Path} {place : Location}
    (h : t.placeFor workingDirectory p = .ok place) :
    ∃ l name, place = l ++ [name] ∧ p.parts.getLast? = some name ∧ name ≠ ".." ∧
      t.walk (startOf workingDirectory p) p.parts.dropLast = .ok l ∧
      t.get? (l ++ [name]) ≠ some .directory := by
  obtain ⟨l, hwalk, h⟩ := bind_eq_ok_iff.mp h
  split at h
  · cases h
  · cases h
  · next name hup hlast =>
    obtain ⟨found, hfound, h⟩ := bind_eq_ok_iff.mp h
    split at h
    · cases h
    · next hfile =>
      refine ⟨l, name, (Except.ok.inj h).symm, hlast, hup, hwalk, ?_⟩
      rw [get?_of_lookUp hfound]
      exact hfile

/-- The place for a file is that of its path. -/
lemma eq_resolve_of_placeFor {workingDirectory : Location} {p : Path} {place : Location}
    (h : t.placeFor workingDirectory p = .ok place) : place = p.resolve workingDirectory := by
  obtain ⟨l, name, rfl, hlast, hup, hwalk, -⟩ := placeFor_eq_ok h
  have hparts : p.parts = p.parts.dropLast ++ [name] :=
    (List.dropLast_append_getLast? name hlast).symm
  rw [Path.resolve, hparts, Location.follow_append, ← startOf, ← eq_follow_of_walk hwalk,
    Location.follow_cons, if_neg hup, Location.follow_nil]

/-- Writing a file takes nothing away and changes no other file. -/
theorem grows_write (t : Tree) (workingDirectory : Location) (p : Path) (content : Text.Bytes) :
    Grows {p.resolve workingDirectory} {name | name ∈ p.parts} t
      (t.write workingDirectory p content).tree := by
  rw [write]
  split
  · exact refl_of _ t
  split
  · next place hplace =>
    rw [← eq_resolve_of_placeFor hplace]
    obtain ⟨l, name, rfl, hlast, -, -, hfile⟩ := placeFor_eq_ok hplace
    exact (grows_put_file hfile).mono (Set.Subset.refl _)
      (Set.singleton_subset_iff.mpr (List.mem_of_getLast? hlast))
  · exact refl_of _ t

/-- Writing a file makes no directory. -/
lemma get?_of_write {workingDirectory : Location} {p : Path} {content : Text.Bytes}
    (h : (t.write workingDirectory p content).tree.get? l = some .directory) :
    t.get? l = some .directory := by
  rw [write] at h
  split at h
  · exact h
  split at h
  · next place hplace =>
    obtain ⟨l', name', rfl, -⟩ := placeFor_eq_ok hplace
    by_cases hsame : l = l' ++ [name']
    · rw [hsame, get?_put_self (by simp)] at h
      cases h
    · rwa [get?_put_of_ne hsame] at h
  · exact h

/-- A file that was written is found, with what was written. -/
theorem find_write {workingDirectory : Location} {p : Path} {content : Text.Bytes}
    (h : (t.write workingDirectory p content).fault = none) :
    (t.write workingDirectory p content).tree.find (startOf workingDirectory p) p.parts =
      .ok (.file content) := by
  rw [write] at h ⊢
  cases hpath : p.fault? with
  | some kind => rw [hpath] at h; cases h
  | none =>
    simp only [hpath] at h ⊢
    cases hplace : t.placeFor workingDirectory p with
    | error kind => rw [hplace] at h; cases h
    | ok place =>
      obtain ⟨l, name, rfl, hlast, hup, hwalk, hfile⟩ := placeFor_eq_ok hplace
      exact find_of_walk hlast hup ((grows_put_file hfile).walk hwalk)
        (get?_put_self (by simp))

/-! ## Removing -/

/-- Removing a directory takes what is below it, and nothing else. -/
theorem get?_removeBelow {place : Location} (h : place ≠ []) :
    (t.removeBelow l).get? place = if l <+: place then none else t.get? place := by
  rw [get?, if_neg h, removeBelow, List.find?_filter]
  split
  · next hbelow =>
    rw [Option.map_eq_none_iff, List.find?_eq_none]
    rintro e - hkept
    simp only [decide_eq_true_eq, Bool.not_eq_true'] at hkept
    obtain ⟨hkept, rfl⟩ := hkept
    rw [List.isPrefixOf_iff_prefix.mpr hbelow] at hkept
    cases hkept
  · next hbelow =>
    rw [get?, if_neg h]
    congr 2
    funext e
    by_cases hplace : e.1 = place
    · simp [hplace, List.isPrefixOf_iff_prefix, hbelow, ← Bool.not_eq_true]
    · simp [hplace]

end Tree

end HoneypotAudit.Files
