import ProofGate.Proofs.Path
import ProofGate.Proofs.Run
import ProofGate.Resource

/-!
# Lookups stay in their folder

What is looked up in the resources is a normal path. It is given back exactly if the folder is
below the resources and the file below the folder, part by part, however the two texts climb,
start from the root or name a sibling. So what loads an interface sees nothing but the documents
below the folder of the interfaces.
-/

namespace ProofGate.Resource

open ProofGate.Path (Normal Normalizes joined)

variable {i j : Installation}

/-- A text that can name a file: its points are characters, and none is the zero character. -/
def Nameable (t : Text) : Prop :=
  ∀ p ∈ t, ∃ c, p = .char c ∧ c ≠ '\x00'

theorem nameable_ofString {s : String} (h : '\x00' ∉ s.toList) : Nameable s := by
  intro p inside
  obtain ⟨c, kept, rfl⟩ := List.mem_map.mp inside
  exact ⟨c, rfl, fun same => h (same ▸ kept)⟩

/-! ## Names of files -/

theorem badHalves?_nameable {t : Text} (h : Nameable t) (position : Nat) :
    Path.badHalves? position t = none := by
  induction t generalizing position with
  | nil => rfl
  | cons p t ih =>
    obtain ⟨⟨c, rfl, -⟩, rest⟩ := List.forall_mem_cons.mp h
    exact ih rest (position + 1)

theorem nameFault?_nameable {t : Text} (h : Nameable t) : Path.nameFault? t = none := by
  have zero : t.contains (.char '\x00') = false := by
    rw [List.contains_eq_mem, decide_eq_false_iff_not]
    intro inside
    obtain ⟨c, same, other⟩ := h _ inside
    exact other (Point.char.inj same).symm
  rw [Path.nameFault?, badHalves?_nameable h, zero]
  rfl

theorem checkNames_eq_ok {parts : List Text} (h : ∀ part ∈ parts, Path.nameFault? part = none) :
    checkNames parts = .ok () := by
  induction parts with
  | nil => rfl
  | cons part parts ih =>
    obtain ⟨first, rest⟩ := List.forall_mem_cons.mp h
    rw [checkNames, first]
    exact ih rest

theorem checkNames_ofText {t : Text} (h : Nameable t) :
    checkNames (Path.ofText t).parts = .ok () := by
  refine checkNames_eq_ok fun part inside => nameFault?_nameable fun p hp => ?_
  exact h p (Path.mem_of_mem_split part (List.mem_filter.mp inside).1 p hp).1

/-! ## Lookups -/

theorem Installation.normal_root (i : Installation) : Normal i.root :=
  Path.normal_append.mpr ⟨i.named, by decide⟩

/-- The folder and the file that a lookup ends in, whatever becomes of it. -/
def folderOf (i : Installation) (folder : Text) : List Text :=
  (Path.ofText folder).resolve i.root

def fileOf (i : Installation) (folder file : Text) : List Text :=
  (Path.ofText file).resolve (folderOf i folder)

theorem normalizes_folderOf (i : Installation) (folder : Text) (inner : List Text) :
    Normalizes (joined i.root folder) inner ↔ inner = folderOf i folder :=
  Path.normalizes_joined_iff i.normal_root

theorem normalizes_fileOf (i : Installation) (folder file : Text) (path : List Text) :
    Normalizes (joined (folderOf i folder) file) path ↔ path = fileOf i folder file :=
  Path.normalizes_joined_iff ((normalizes_folderOf i folder _).mpr rfl).normal

/-- A lookup checks the names and compares what it ends in. -/
theorem locate_eq (i : Installation) (folder file : Text) :
    locate i folder file = (do
      checkNames (Path.ofText folder).parts
      checkNames (Path.ofText file).parts
      if i.root <+: folderOf i folder ∧ folderOf i folder <+: fileOf i folder file then
        .ok (fileOf i folder file)
      else .error (.outsideResources folder file)) := by
  simp only [← List.isPrefixOf_iff_prefix, ← Bool.and_eq_true]
  rfl

theorem locate_eq_ok {folder file : Text} {path : List Text} (h : locate i folder file = .ok path) :
    path = fileOf i folder file ∧ i.root <+: folderOf i folder ∧ folderOf i folder <+: path := by
  rw [locate_eq] at h
  obtain ⟨-, -, h⟩ := bind_eq_ok.mp h
  obtain ⟨-, -, h⟩ := bind_eq_ok.mp h
  split at h
  · next inside =>
    cases h
    exact ⟨rfl, inside⟩
  · cases h

theorem locate_nameable {folder file : Text} (hd : Nameable folder) (hf : Nameable file) :
    locate i folder file =
      if i.root <+: folderOf i folder ∧ folderOf i folder <+: fileOf i folder file then
        .ok (fileOf i folder file)
      else .error (.outsideResources folder file) := by
  rw [locate_eq, checkNames_ofText hd, checkNames_ofText hf, ok_bind, ok_bind]

/-! ## Interfaces -/

theorem folderOf_interfaces (i : Installation) : folderOf i "abi" = i.interfaces := by
  rw [Installation.interfaces, List.concat_eq_append]
  have named : Normal ["abi"] := by decide
  exact Path.climb_normal named i.root

theorem locate_interfaces {file : Text} {path : List Text}
    (h : locate i "abi" file = .ok path) :
    Normalizes (joined i.interfaces file) path ∧ i.interfaces <+: path := by
  obtain ⟨rfl, -, below⟩ := locate_eq_ok h
  rw [folderOf_interfaces] at below
  refine ⟨?_, below⟩
  rw [← folderOf_interfaces]
  exact (normalizes_fileOf i _ _ _).mpr rfl

theorem openInterface_eq_ok {path : List Text} {v : Value} (h : openInterface i path = .ok v) :
    i.documents.lookup path = some v := by
  rw [openInterface] at h
  split at h
  · cases h
  split at h
  · next found =>
    cases h
    exact found
  · cases h

/-- An interface is the document its name leads to, below the folder of the interfaces. -/
theorem readInterface_eq_ok {name v : Value} (h : readInterface i name = .ok v) :
    ∃ path, Normalizes (joined i.interfaces (name.bare ++ ".json")) path ∧
      i.interfaces <+: path ∧ i.documents.lookup path = some v := by
  obtain ⟨path, located, opened⟩ := bind_eq_ok.mp h
  obtain ⟨normal, below⟩ := locate_interfaces located
  exact ⟨path, normal, below, openInterface_eq_ok opened⟩

/-! ## What an interface depends on -/

theorem isFolder_iff {path : List Text} :
    isFolder i path = true ↔ path = i.interfaces ∨
      ∃ q, path <+: q ∧ path.length < q.length ∧ (i.documents.lookup q).isSome = true := by
  simp only [isFolder, Bool.or_eq_true, beq_iff_eq, List.any_eq_true, Bool.and_eq_true,
    List.isPrefixOf_iff_prefix, decide_eq_true_eq, List.lookup_isSome_iff]
  refine or_congr_right ⟨?_, ?_⟩
  · rintro ⟨d, kept, before, shorter⟩
    exact ⟨d.1, before, shorter, d, kept, rfl⟩
  · rintro ⟨_, before, shorter, d, kept, rfl⟩
    exact ⟨d, kept, before, shorter⟩

/-- Installations in one place, with the same documents below the folder of the interfaces. -/
structure Alike (i j : Installation) : Prop where
  home : j.home = i.home
  documents : ∀ path, i.interfaces <+: path → j.documents.lookup path = i.documents.lookup path

section

variable (alike : Alike i j)
include alike

theorem Alike.root : j.root = i.root :=
  congrArg (· ++ package) alike.home

theorem Alike.interfaces : j.interfaces = i.interfaces :=
  congrArg (fun root => root.concat ("abi" : Text)) alike.root

theorem locate_alike (folder file : Text) : locate j folder file = locate i folder file := by
  simp only [locate, alike.root]

theorem shown_alike (path : List Text) : shown j path = shown i path := by
  rw [shown, shown, alike.root]

theorem isFolder_alike {path : List Text} (below : i.interfaces <+: path) :
    isFolder j path = isFolder i path := by
  rw [Bool.eq_iff_iff, isFolder_iff, isFolder_iff, alike.interfaces]
  refine or_congr_right (exists_congr fun q => and_congr_right fun onward => and_congr_right fun _ => ?_)
  rw [alike.documents q (below.trans onward)]

theorem hasLongPart_alike {here : List Text} (below : i.interfaces <+: here) (parts : List Text) :
    hasLongPart j here parts = hasLongPart i here parts := by
  induction parts generalizing here with
  | nil => rfl
  | cons part parts ih =>
    rw [hasLongPart, hasLongPart, isFolder_alike alike below,
      ih (below.trans (List.prefix_append here [part]))]

theorem openInterface_alike {path : List Text} (below : i.interfaces <+: path) :
    openInterface j path = openInterface i path := by
  have long : isTooLong j path = isTooLong i path := by
    rw [isTooLong, isTooLong, alike.interfaces, hasLongPart_alike alike (List.prefix_refl _)]
  rw [openInterface, openInterface, long, shown_alike alike, alike.documents path below,
    isFolder_alike alike below]

theorem readInterface_alike (name : Value) : readInterface j name = readInterface i name := by
  rw [readInterface, readInterface, locate_alike alike]
  cases located : locate i "abi" (name.bare ++ ".json") with
  | error e => rfl
  | ok path => exact openInterface_alike alike (locate_interfaces located).2

theorem interface_alike (cache : Cache) (name : Value) :
    interface j cache name = interface i cache name := by
  rw [interface, interface, readInterface_alike alike]

end

/-! ## Containment -/

/-- **Lookups stay in their folder.** A folder of the resources and a file in it have one normal path
each. That of the file is given back if it goes on from that of the folder, and that from the
resources; otherwise the lookup fails for a wrong value. An interface is a document below the folder
of the interfaces, and no document elsewhere has a part in how it is loaded. -/
theorem locate_contained (i : Installation) {folder file : Text} (hd : Nameable folder)
    (hf : Nameable file) :
    (∃ inner path, (∀ p, Normalizes (joined i.root folder) p ↔ p = inner) ∧
      (∀ p, Normalizes (joined inner file) p ↔ p = path) ∧
      locate i folder file =
        if i.root <+: inner ∧ inner <+: path then .ok path
        else .error (.outsideResources folder file)) ∧
      (Failure.outsideResources folder file).kind = .value ∧
      (∀ name v, readInterface i name = .ok v →
        ∃ path, Normalizes (joined i.interfaces (name.bare ++ ".json")) path ∧
          i.interfaces <+: path ∧ i.documents.lookup path = some v) ∧
      ∀ j, Alike i j → ∀ cache name, interface j cache name = interface i cache name := by
  refine ⟨⟨folderOf i folder, fileOf i folder file, normalizes_folderOf i folder,
    normalizes_fileOf i folder file, locate_nameable hd hf⟩, rfl, ?_, ?_⟩
  · intro name v
    exact readInterface_eq_ok
  · intro j alike cache name
    exact interface_alike alike cache name

theorem locate_contained_sample :
    let i := packaged ["opt"] (by decide)
    let j := { i with documents := (["etc", "abi.json"], .list []) :: i.documents }
    Nameable "abi" ∧ Nameable "../../resources//abi/./x.json" ∧ Nameable "../resources_old" ∧
      Alike i j ∧
      locate i "abi" "../../resources//abi/./x.json" = .ok (i.interfaces.concat "x.json") ∧
      locate i "../resources_old" "abi" = .error (.outsideResources "../resources_old" "abi") ∧
      (∃ path, i.interfaces <+: path ∧ i.documents.lookup path = some verifierInterface) ∧
      interface j [] (.text "../../../../etc/abi") = interface i [] (.text "../../../../etc/abi") := by
  intro i j
  have folder : Nameable "abi" := nameable_ofString (by decide)
  have round : Nameable "../../resources//abi/./x.json" := nameable_ofString (by decide)
  have sibling : Nameable "../resources_old" := nameable_ofString (by decide)
  have alike : Alike i j := by
    refine ⟨rfl, fun path below => ?_⟩
    have elsewhere : path ≠ (["etc", "abi.json"] : List Text) := by
      rintro rfl
      exact absurd below (by decide)
    rw [List.lookup_cons, beq_false_of_ne elsewhere]
  have loaded : readInterface i (.text "groth16_verifier") = .ok verifierInterface := rfl
  refine ⟨folder, round, sibling, alike, ?_, ?_, ?_, ?_⟩
  · obtain ⟨⟨inner, path, atInner, atPath, outcome⟩, -⟩ := locate_contained i folder round
    obtain rfl : folderOf i "abi" = inner := (atInner _).mp ((normalizes_folderOf i _ _).mpr rfl)
    obtain rfl : fileOf i "abi" "../../resources//abi/./x.json" = path :=
      (atPath _).mp ((normalizes_fileOf i _ _ _).mpr rfl)
    exact outcome.trans ((if_pos (by decide)).trans rfl)
  · obtain ⟨⟨inner, path, atInner, atPath, outcome⟩, -⟩ := locate_contained i sibling folder
    obtain rfl : folderOf i "../resources_old" = inner :=
      (atInner _).mp ((normalizes_folderOf i _ _).mpr rfl)
    exact outcome.trans (if_neg fun inside => absurd inside.1 (by decide))
  · obtain ⟨path, -, below, kept⟩ := (locate_contained i folder round).2.2.1 _ _ loaded
    exact ⟨path, below, kept⟩
  · exact (locate_contained i folder round).2.2.2 j alike [] _

end ProofGate.Resource
