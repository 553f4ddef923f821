import EmbeddedSql.Proofs.Storage.Replacing
import Mathlib.Data.List.Induction

/-!
# Looking up paths

A path with a name leads through the directory above it, and so does the path of the file that
is written first. So the two are looked up alike up to their last steps, and a file that comes
or goes at the one path makes no difference to the other. If every place is in a directory, so
is the place to which a path leads.
-/

namespace EmbeddedSql.Storage

namespace Path

variable {path : Path} {name : String}

/-! ## The steps of a path -/

/-- Some steps and then some more move as they do one after another. -/
theorem moves_append (front back : List Step) : moves (front ++ back) = moves front ++ moves back :=
  List.filter_append front back

/-- Behind the move that names a path its steps stay where they are. -/
theorem exists_steps (h : path.name? = some name) :
    ∃ before count, path.steps = before ++ .into name :: List.replicate count .stay ∧
      moves before = path.parent.steps := by
  obtain ⟨absolute, steps⟩ := path
  have hlast : (moves steps).getLast? = some (.into name) := by
    rw [name?] at h
    split at h
    next hl => rw [hl, Option.some.inj h]
    next => cases h
  clear h
  simp only [parent]
  induction steps using List.reverseRecOn with
  | nil => cases hlast
  | append_singleton init step ih =>
    rw [moves_append] at hlast ⊢
    by_cases hstep : step = .stay
    · subst hstep
      have hstay : moves [.stay] = [] := rfl
      rw [hstay, List.append_nil] at hlast ⊢
      obtain ⟨before, count, rfl, hbefore⟩ := ih hlast
      exact ⟨before, count + 1, by rw [List.replicate_succ']; simp, hbefore⟩
    · have hmove : moves [step] = [step] := List.filter_cons_of_pos (by simpa using hstep)
      rw [hmove, List.getLast?_concat] at hlast
      rw [hmove, List.dropLast_concat]
      exact ⟨init, 0, by rw [Option.some.inj hlast]; rfl, rfl⟩

/-- A path with a name moves to the directory above it and then into the name. -/
theorem moves_eq (h : path.name? = some name) :
    moves path.steps = path.parent.steps ++ [.into name] := by
  obtain ⟨before, count, hsteps, hbefore⟩ := exists_steps h
  have hstays : moves (List.replicate count .stay) = [] := by
    rw [moves, List.filter_eq_nil_iff]
    intro step hm
    simpa using List.eq_of_mem_replicate hm
  have hinto : moves (.into name :: List.replicate count .stay) = [.into name] := by
    rw [← List.singleton_append, moves_append, hstays]
    rfl
  rw [hsteps, moves_append, hbefore, hinto]

/-- Some of the steps of a list are no larger than all of them. -/
theorem sizeOf_le_of_sublist {short long : List Step} (h : short.Sublist long) :
    sizeOf short ≤ sizeOf long := by
  induction h with
  | slnil => exact Nat.le_refl _
  | cons step _ ih =>
    rw [sizeOf]
    omega
  | cons_cons step _ ih =>
    rw [sizeOf, sizeOf]
    omega

/-- A path with fewer of the same steps can be looked up if the longer one can. -/
theorem isUsable_of_sublist {absolute : Bool} {short long : List Step} (h : short.Sublist long)
    (hu : (Path.mk absolute long).isUsable = true) : (Path.mk absolute short).isUsable = true := by
  have hsize := sizeOf_le_of_sublist h
  simp only [isUsable, Bool.and_eq_true, decide_eq_true_eq, List.all_eq_true] at hu ⊢
  exact ⟨by omega, fun step hm => hu.2 step (h.subset hm)⟩

/-- The beginnings of a list are its prefixes but for the empty one. -/
theorem mem_beginnings {α : Type} {list front : List α} :
    front ∈ beginnings list ↔ front ≠ [] ∧ front <+: list := by
  induction list generalizing front with
  | nil => simp [beginnings]
  | cons head rest ih =>
    rw [beginnings, List.mem_cons, List.mem_map, List.prefix_cons_iff]
    constructor
    · rintro (rfl | ⟨more, hm, rfl⟩)
      · exact ⟨List.cons_ne_nil _ _, .inr ⟨[], rfl, List.nil_prefix⟩⟩
      · exact ⟨List.cons_ne_nil _ _, .inr ⟨more, rfl, (ih.mp hm).2⟩⟩
    · rintro ⟨hne, rfl | ⟨more, rfl, hprefix⟩⟩
      · exact absurd rfl hne
      · cases more with
        | nil => exact .inl rfl
        | cons step more => exact .inr ⟨_, ih.mpr ⟨List.cons_ne_nil _ _, hprefix⟩, rfl⟩

/-- The paths on the way to a path begin like it. -/
theorem exists_of_mem_way {way : Path} (h : way ∈ path.way) :
    ∃ front back, way = ⟨path.absolute, front⟩ ∧ front ≠ [] ∧ path.steps = front ++ back := by
  obtain ⟨front, hm, rfl⟩ := List.mem_map.mp h
  obtain ⟨hne, back, hb⟩ := mem_beginnings.mp hm
  exact ⟨front, back, rfl, hne, hb.symm⟩

end Path

namespace FileSystem

variable {a b : FileSystem} {location goal : Location} {path : Path} {name : String}

/-! ## Step by step -/

/-- Some steps and then some more are followed one after another. -/
theorem follow_append (system : FileSystem) (location : Location) (front back : List Step) :
    system.follow location (front ++ back) =
      system.follow location front >>= fun middle => system.follow middle back := by
  induction front generalizing location with
  | nil => rfl
  | cons step rest ih =>
    conv_lhs => rw [List.cons_append]; unfold follow
    conv_rhs => arg 1; unfold follow
    cases system.node? location with
    | none => rfl
    | some node =>
      cases node with
      | file content => rfl
      | directory =>
        cases step with
        | stay => exact ih location
        | up => exact ih location.dropLast
        | into name =>
          simp only
          split
          · rfl
          · exact ih _

/-- Nothing leads on from where there is nothing. -/
theorem follow_of_node?_eq_none (h : a.node? location = none) {steps : List Step}
    (hs : steps ≠ []) : a.follow location steps = .error .notFound := by
  obtain ⟨step, rest, rfl⟩ := List.exists_cons_of_ne_nil hs
  unfold follow
  rw [h]

/-- What leads on leads through a directory. -/
theorem directory_of_follow {step : Step} {rest : List Step}
    (h : a.follow location (step :: rest) = .ok goal) : a.node? location = some .directory := by
  unfold follow at h
  cases hn : a.node? location with
  | none => rw [hn] at h; cases h
  | some node =>
    cases node with
    | file content => rw [hn] at h; cases h
    | directory => rfl

/-- Of a way that leads somewhere every front does. -/
theorem exists_of_follow {front back : List Step}
    (h : a.follow location (front ++ back) = .ok goal) :
    ∃ middle, a.follow location front = .ok middle ∧ a.follow middle back = .ok goal := by
  rw [follow_append] at h
  cases hf : a.follow location front with
  | error fault => rw [hf] at h; cases h
  | ok middle =>
    rw [hf] at h
    exact ⟨middle, rfl, h⟩

/-- A way that leads on goes through a directory. -/
theorem exists_directory_of_follow {front back : List Step}
    (h : a.follow location (front ++ back) = .ok goal) (hb : back ≠ []) :
    ∃ middle, a.follow location front = .ok middle ∧ a.node? middle = some .directory ∧
      a.follow middle back = .ok goal := by
  obtain ⟨step, rest, rfl⟩ := List.exists_cons_of_ne_nil hb
  obtain ⟨middle, hfront, hback⟩ := exists_of_follow h
  exact ⟨middle, hfront, directory_of_follow hback, hback⟩

/-- A name leads from a directory down to it. -/
theorem follow_into (h : a.node? location = some .directory) (name : String) (rest : List Step) :
    a.follow location (.into name :: rest) =
      if 255 < name.utf8ByteSize then .error .badName
      else a.follow (location ++ [name]) rest := by
  rw [follow, h]

/-- A step that stays needs the directory that the next step needs. -/
theorem follow_stay (system : FileSystem) (location : Location) (step : Step) (rest : List Step) :
    system.follow location (.stay :: step :: rest) = system.follow location (step :: rest) := by
  conv_lhs => unfold follow
  cases hn : system.node? location with
  | none => rw [follow_of_node?_eq_none hn (List.cons_ne_nil _ _)]
  | some node =>
    cases node with
    | file content => unfold follow; rw [hn]
    | directory => rfl

/-- In front of another step only the moves count. -/
theorem follow_moves (system : FileSystem) (location : Location) (front : List Step) (step : Step)
    (rest : List Step) : system.follow location (front ++ step :: rest) =
      system.follow location (Path.moves front ++ step :: rest) := by
  induction front generalizing location with
  | nil => rfl
  | cons first front ih =>
    have hfollow : ∀ other : List Step,
        (∀ location, system.follow location (front ++ step :: rest) =
          system.follow location other) →
        system.follow location (first :: (front ++ step :: rest)) =
          system.follow location (first :: other) := by
      intro other h
      unfold follow
      simp only [h]
    cases first with
    | stay =>
      have hmoves : Path.moves (.stay :: front) = Path.moves front := rfl
      rw [hmoves, ← ih, List.cons_append]
      cases front with
      | nil => exact follow_stay system location step rest
      | cons second front => exact follow_stay system location second _
    | up => exact hfollow _ ih
    | into name => exact hfollow _ ih

/-- Staying somewhere leads nowhere else. -/
theorem follow_stays {count : Nat} (h : a.follow location (List.replicate count .stay) = .ok goal) :
    goal = location := by
  induction count with
  | zero => exact (Except.ok.inj h).symm
  | succ count ih =>
    have hd := directory_of_follow h
    rw [List.replicate_succ, follow, hd] at h
    exact ih h

/-- Whether one can stay somewhere depends only on what is there. -/
theorem follow_stays_congr (h : a.node? location = b.node? location) (count : Nat) :
    a.follow location (List.replicate count .stay) =
      b.follow location (List.replicate count .stay) := by
  induction count with
  | zero => rfl
  | succ count ih =>
    rw [List.replicate_succ, follow, follow, h]
    simp only [ih]

/-! ## A file and the one written first -/

/-- Where a path is looked up from. -/
def start (system : FileSystem) (path : Path) : Location :=
  if path.absolute then [] else system.working

/-- Where directories only come, a path is looked up from the same place. -/
theorem Grows.start (h : Grows a b) (path : Path) : a.start path = b.start path := by
  rw [FileSystem.start, FileSystem.start, h.working]

/-- A path that can be used is followed step by step. -/
theorem locate_of_isUsable (h : path.isUsable = true) :
    a.locate path = a.follow (a.start path) path.steps :=
  if_pos h

/-- A path that cannot be used leads nowhere. -/
theorem locate_of_not_isUsable (h : path.isUsable = false) : a.locate path = .error .badName := by
  rw [locate, if_neg (by simp [h])]

/-- At a path that cannot be used nothing can be read. -/
theorem contentOf_of_not_isUsable (h : path.isUsable = false) :
    a.contentOf path = .error .badName := by
  rw [contentOf, locate_of_not_isUsable h]

/-- A path that leads somewhere can be used. -/
theorem isUsable_of_locate (h : a.locate path = .ok goal) : path.isUsable = true := by
  cases hu : path.isUsable with
  | true => rfl
  | false => rw [locate_of_not_isUsable hu] at h; cases h

/-- A path with a name leads through the directory above it. -/
theorem exists_locate (hp : path.name? = some name) (hu : path.isUsable = true) :
    ∃ count, ∀ system : FileSystem, system.locate path =
      system.follow (system.start path)
        (path.parent.steps ++ .into name :: List.replicate count .stay) := by
  obtain ⟨before, count, hsteps, hbefore⟩ := Path.exists_steps hp
  refine ⟨count, fun system => ?_⟩
  rw [locate_of_isUsable hu, hsteps, follow_moves, hbefore]

/-- The way to the directory above a path, from which a name leads on. -/
structure Above (system : FileSystem) (path : Path) (name : String) (location : Location) :
    Prop where
  /-- The moves before the last one lead to it. -/
  follows : system.follow (system.start path) path.parent.steps = .ok location
  /-- It is a directory. -/
  directory : system.node? location = some .directory
  /-- The name is not too long. -/
  short : ¬ 255 < name.utf8ByteSize

/-- There is only one directory above a path. -/
theorem Above.eq {other : String} {place : Location} (h : a.Above path name location)
    (k : a.Above path other place) : place = location :=
  Except.ok.inj (k.follows.symm.trans h.follows)

/-- What leads to a name in the directory above a path leads through that directory. -/
theorem exists_above {rest : List Step}
    (h : a.follow (a.start path) (path.parent.steps ++ .into name :: rest) = .ok goal) :
    ∃ location, a.Above path name location ∧ a.follow (location ++ [name]) rest = .ok goal := by
  obtain ⟨location, hf, hd, hrest⟩ := exists_directory_of_follow h (List.cons_ne_nil _ _)
  rw [follow_into hd] at hrest
  split at hrest
  · cases hrest
  next hshort => exact ⟨location, ⟨hf, hd, hshort⟩, hrest⟩

/-- A path with a name leads to that name in the directory above it. -/
theorem above_of_locate (hp : path.name? = some name) (h : a.locate path = .ok goal) :
    ∃ location, a.Above path name location ∧ goal = location ++ [name] := by
  obtain ⟨count, hlocate⟩ := exists_locate hp (isUsable_of_locate h)
  rw [hlocate] at h
  obtain ⟨location, habove, hrest⟩ := exists_above h
  exact ⟨location, habove, follow_stays hrest⟩

/-- A file that is put in the directory above a path, by another name, does not change what is
read at the path. -/
theorem contentOf_put_beside (hp : path.name? = some name) {side : String} (hside : name ≠ side)
    (h : a.Above path side location) (hnot : a.node? (location ++ [side]) ≠ some .directory)
    (content : List UInt8) :
    (a.put (location ++ [side]) (.file content)).contentOf path = a.contentOf path := by
  have hgrows := grows_put hnot (.file content)
  generalize hb : a.put (location ++ [side]) (.file content) = b at hgrows ⊢
  have hfollow : b.follow (b.start path) path.parent.steps = .ok location :=
    hgrows.start path ▸ hgrows.follow h.follows
  have hnode : b.node? (location ++ [name]) = a.node? (location ++ [name]) := by
    rw [← hb, node?_put (List.append_ne_nil_of_right_ne_nil _ (List.cons_ne_nil _ _)),
      if_neg (by simpa using hside)]
  cases hu : path.isUsable with
  | false => rw [contentOf_of_not_isUsable hu, contentOf_of_not_isUsable hu]
  | true =>
    obtain ⟨count, hlocate⟩ := exists_locate hp hu
    have hlocated : b.locate path = a.locate path := by
      rw [hlocate, hlocate, follow_append, follow_append, hfollow, h.follows]
      change b.follow location _ = a.follow location _
      rw [follow_into h.directory, follow_into (hgrows.directory _ h.directory),
        follow_stays_congr hnode]
    rw [contentOf, contentOf, hlocated]
    cases hl : a.locate path with
    | error fault => rfl
    | ok goal =>
      obtain ⟨other, habove, rfl⟩ := above_of_locate hp hl
      obtain rfl := h.eq habove
      simp only [hnode]

/-- There is nothing at a path that leads on from where there is nothing. -/
theorem contentOf_of_missing (hp : path.name? = some name) (hu : path.isUsable = true)
    {front back : List Step} (hsteps : Path.moves path.steps = front ++ back)
    (hf : a.follow (a.start path) front = .ok location) (hn : a.node? location = none) :
    a.contentOf path = .error .notFound := by
  obtain ⟨count, hlocate⟩ := exists_locate hp hu
  have hall : path.parent.steps ++ .into name :: List.replicate count .stay =
      front ++ (back ++ List.replicate count .stay) := by
    rw [← List.append_assoc, ← hsteps, Path.moves_eq hp, List.append_assoc]
    rfl
  have hlocated : a.locate path = a.follow location (back ++ List.replicate count .stay) := by
    rw [hlocate, hall, follow_append, hf]
    rfl
  rw [contentOf, hlocated]
  cases hback : back ++ List.replicate count .stay with
  | nil =>
    rw [follow]
    simp only [hn]
  | cons step rest => rw [follow_of_node?_eq_none hn (List.cons_ne_nil _ _)]

/-! ## Every place is in a directory -/

/-- Whatever there is, is in a directory. -/
def Rooted (system : FileSystem) : Prop :=
  ∀ location, system.node? location ≠ none → system.node? location.dropLast = some .directory

/-- In an empty file system there are the directories on the way to the working directory and
nothing else. -/
theorem node?_empty (working location : Location) :
    (empty working).node? location = if location <+: working then some .directory else none := by
  by_cases hl : location = []
  · rw [node?, if_pos hl, if_pos (hl ▸ List.nil_prefix)]
  · have hmem : location ∈ beginnings working ↔ location <+: working :=
      Path.mem_beginnings.trans (and_iff_right hl)
    rw [node?, if_neg hl, empty, List.find?_map]
    simp only [Function.comp_def]
    cases hf : (beginnings working).find? fun beginning => decide (beginning = location) with
    | none =>
      have hnot : ¬ location <+: working := fun hm => by
        simpa using List.find?_eq_none.mp hf location (hmem.mpr hm)
      rw [if_neg hnot]
      rfl
    | some found =>
      obtain rfl : found = location := by simpa using List.find?_some hf
      rw [if_pos (hmem.mp (List.mem_of_find?_eq_some hf))]
      rfl

/-- A file system with one empty directory has no place outside of directories. -/
theorem rooted_empty (working : Location) : (empty working).Rooted := by
  intro location h
  rw [node?_empty] at h ⊢
  split at h
  next hprefix => rw [if_pos ((List.dropLast_prefix _).trans hprefix)]
  next => exact absurd rfl h

/-- What a way leads to is in a directory if its start is. -/
theorem Rooted.follow (h : a.Rooted) {steps : List Step}
    (hd : a.node? location.dropLast = some .directory) (hf : a.follow location steps = .ok goal) :
    a.node? goal.dropLast = some .directory := by
  induction steps generalizing location with
  | nil => exact Except.ok.inj hf ▸ hd
  | cons step rest ih =>
    have hdirectory := directory_of_follow hf
    unfold FileSystem.follow at hf
    rw [hdirectory] at hf
    cases step with
    | stay => exact ih hd hf
    | up => exact ih (h _ (by simp [hd])) hf
    | into name =>
      simp only at hf
      split at hf
      · cases hf
      · exact ih (by rw [List.dropLast_concat]; exact hdirectory) hf

/-- What a way with steps leads to is in a directory. -/
theorem Rooted.follow_of_ne_nil (h : a.Rooted) {steps : List Step} (hs : steps ≠ [])
    (hf : a.follow location steps = .ok goal) : a.node? goal.dropLast = some .directory := by
  obtain ⟨step, rest, rfl⟩ := List.exists_cons_of_ne_nil hs
  exact h.follow (h _ (by simp [directory_of_follow hf])) hf

end FileSystem

end EmbeddedSql.Storage
