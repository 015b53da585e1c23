import CellAbi.Files.Tree
import CellAbi.Proofs.Outcome
import Mathlib.Data.List.DropRight

/-!
# Files as a map from paths to texts

What a program that reads and writes texts can rely on: a text that is read is the one the path
leads to, directories are created beside the files, and a file that is written holds its text while
paths that end in other names keep theirs.  Trees of files in memory are such a map.

    Path.last (Path.join dir name) = name.toList   if `name` has no slash            (`last_join`)
    FileTree.access.IsMap FileTree.textAt?                                        (`access_isMap`)
-/

namespace CellAbi

/-! ## Paths -/

namespace Path

/-- What follows the last slash of a path. -/
def last (path : String) : List Char := path.toList.rtakeWhile (· != '/')

theorem last_append {front suffix : String} (h : '/' ∉ suffix.toList) :
    last (front ++ suffix) = last front ++ suffix.toList := by
  have hsuffix : ∀ c ∈ suffix.toList.reverse, (c != '/') = true := fun c hc =>
    bne_iff_ne.2 fun heq => h (heq ▸ List.mem_reverse.1 hc)
  rw [last, String.toList_append, List.rtakeWhile, List.reverse_append,
    List.takeWhile_append_of_pos hsuffix, List.reverse_append, List.reverse_reverse]
  rfl

/-- What is put in front of a path ends with a slash, if it is anything. -/
theorem exists_join (dir path : String) :
    ∃ front, join dir path = front ++ path ∧ last front = [] := by
  unfold join
  split
  · exact ⟨"", by simp, rfl⟩
  split
  · exact ⟨"", by simp, rfl⟩
  · next hdir =>
    refine ⟨dir, rfl, List.rtakeWhile_eq_nil_iff.2 fun hne => ?_⟩
    rw [List.getLast?_eq_some_getLast hne] at hdir
    simp [Option.some.inj hdir]
  · refine ⟨dir ++ "/", rfl, ?_⟩
    rw [last, String.toList_append]
    exact List.rtakeWhile_concat_neg _ _ _ (by decide)

theorem last_join {dir name : String} (h : '/' ∉ name.toList) :
    last (join dir name) = name.toList := by
  obtain ⟨front, hjoin, hfront⟩ := exists_join dir name
  rw [hjoin, last_append h, hfront]
  rfl

theorem rtakeWhile_slash (front rest : List Char) :
    (front ++ '/' :: rest).rtakeWhile (· != '/') = rest.rtakeWhile (· != '/') := by
  induction rest using List.reverseRecOn with
  | nil => exact List.rtakeWhile_concat_neg _ _ _ (by decide)
  | append_singleton rest c ih =>
    rw [← List.cons_append, ← List.append_assoc, List.rtakeWhile_concat, List.rtakeWhile_concat, ih]

theorem getLast?_split {part : List Char} (cs : List Char) (h : '/' ∉ part) :
    (split part cs).getLast? =
      some (String.ofList ((part.reverse ++ cs).rtakeWhile (· != '/'))) := by
  induction cs generalizing part with
  | nil =>
    rw [split, List.append_nil, List.rtakeWhile_eq_self_iff.2]
    · rfl
    · exact fun c hc => bne_iff_ne.2 fun heq => h (heq ▸ List.mem_reverse.1 hc)
  | cons c rest ih =>
    rw [split]
    split
    · next hc => rw [hc, rtakeWhile_slash, List.getLast?_cons, ih List.not_mem_nil]; rfl
    · next hc =>
      rw [ih (List.mem_cons.not.2 (not_or.2 ⟨Ne.symm hc, h⟩)), List.reverse_cons,
        List.append_assoc]
      rfl

theorem getLast?_parts (path : String) : (parts path).getLast? = some (String.ofList (last path)) :=
  getLast?_split path.toList List.not_mem_nil

end Path

/-! ## Maps from paths to texts -/

/-- Operations on files, seen through the texts that paths lead to.  A path leads elsewhere than
another if it ends in another name. -/
structure Files.IsMap {σ : Type} (files : Files (StateM σ)) (text? : σ → String → Option String) :
    Prop where
  isFile_state : ∀ path s, ((files.isFile path).run s).2 = s
  entries_state : ∀ dir s, ((files.entries dir).run s).2 = s
  readText_state : ∀ path s, ((files.readText path).run s).2 = s
  readText_ok : ∀ {path s text}, ((files.readText path).run s).1 = .ok text →
    text? s path = some text
  createDirs_keeps : ∀ {dir s path text}, text? s path = some text →
    text? ((files.createDirs dir).run s).2 path = some text
  write_ok : ∀ {path text s}, ((files.write path text).run s).1 = .ok () →
    text? ((files.write path text).run s).2 path = some text
  write_keeps : ∀ {path text s other old}, Path.last other ≠ Path.last path →
    text? s other = some old → text? ((files.write path text).run s).2 other = some old

/-! ## Trees -/

namespace FileTree

variable {t t' : FileTree} {place : List String} {path text : String}

/-- The text that a path leads to. -/
def textAt? (t : FileTree) (path : String) : Option String := (t.readText path).toOption

theorem textAt?_eq_some :
    t.textAt? path = some text ↔
      ∃ place, t.resolve path = .ok place ∧ t.text? place = some text := by
  have hread : t.textAt? path = some text ↔ t.readText path = .ok text := by
    unfold textAt?
    cases t.readText path with
    | error e => exact iff_of_false nofun nofun
    | ok old => exact ⟨fun h => congrArg _ (Option.some.inj h), fun h => by rw [h]; rfl⟩
  rw [hread, readText, Outcome.bind_eq_ok]
  refine exists_congr fun place => and_congr_right fun _ => ?_
  cases t.text? place with
  | none =>
    refine iff_of_false (fun h => ?_) nofun
    dsimp only at h
    split at h <;> cases h
  | some old =>
    exact ⟨fun h => congrArg _ (Except.ok.inj h), fun h => congrArg _ (Option.some.inj h)⟩

/-! ### Directories -/

theorem hasDir_iff :
    t.hasDir place = true ↔
      place = [] ∨ (∃ dir ∈ t.dirs, place <+: dir) ∨
        ∃ file ∈ t.files, place <+: file.1 ∧ place ≠ file.1 := by
  simp [hasDir, or_assoc]

theorem hasDir_above {above : List String} (habove : above <+: place)
    (h : t.hasDir place = true) : t.hasDir above = true := by
  rw [hasDir_iff] at h ⊢
  obtain rfl | ⟨dir, hdir, hprefix⟩ | ⟨file, hfile, hprefix, hne⟩ := h
  · exact .inl (List.prefix_nil.1 habove)
  · exact .inr (.inl ⟨dir, hdir, habove.trans hprefix⟩)
  · refine .inr (.inr ⟨file, hfile, habove.trans hprefix, fun heq => hne ?_⟩)
    exact hprefix.eq_of_length_le (heq ▸ habove.length_le)

theorem requireDir_eq_ok : t.requireDir place = .ok () ↔ t.hasDir place = true := by
  unfold requireDir
  split
  · next h => exact iff_of_true rfl h
  · next h => split <;> exact iff_of_false nofun h

/-! ### Walking -/

/-- The place that one part of a path leads to. -/
def step (here : List String) (part : String) : Except FileError (List String) :=
  if part = "" ∨ part = "." then .ok here
  else if part = ".." then if here.isEmpty then .error .notFound else .ok here.dropLast
  else if part.utf8ByteSize > maxName then .error .nameTooLong
  else .ok (here ++ [part])

theorem walk_cons_eq_ok {here rest : List String} {part : String} :
    t.walk here (part :: rest) = .ok place ↔
      t.hasDir here = true ∧ ∃ next, step here part = .ok next ∧ t.walk next rest = .ok place := by
  have hwalk : t.walk here (part :: rest) =
      t.requireDir here >>= fun _ => step here part >>= fun next => t.walk next rest := by
    rw [walk]
    refine congrArg _ (funext fun _ => ?_)
    unfold step
    repeat' split
    all_goals rfl
  simp only [hwalk, Outcome.bind_eq_ok, ← requireDir_eq_ok]
  exact ⟨fun ⟨_, h⟩ => h, fun h => ⟨(), h⟩⟩

/-- Every directory of the one tree is one of the other. -/
def HasDirsOf (t' t : FileTree) : Prop := ∀ place, t.hasDir place = true → t'.hasDir place = true

theorem walk_of_hasDirsOf (h : t'.HasDirsOf t) {here parts : List String}
    (hwalk : t.walk here parts = .ok place) : t'.walk here parts = .ok place := by
  induction parts generalizing here with
  | nil => exact hwalk
  | cons part rest ih =>
    obtain ⟨hdir, next, hnext, hwalk⟩ := walk_cons_eq_ok.1 hwalk
    exact walk_cons_eq_ok.2 ⟨h here hdir, next, hnext, ih hwalk⟩

theorem resolve_of_hasDirsOf (h : t'.HasDirsOf t) (hresolve : t.resolve path = .ok place) :
    t'.resolve path = .ok place := by
  unfold resolve at hresolve ⊢
  split at hresolve
  · cases hresolve
  · exact walk_of_hasDirsOf h hresolve

/-- What is no directory is reached by its name. -/
theorem getLast?_of_walk {here parts : List String} (hhere : t.hasDir here = true)
    (hplace : t.hasDir place = false) (hwalk : t.walk here parts = .ok place) :
    parts.getLast? = place.getLast? := by
  induction parts generalizing here with
  | nil =>
    obtain rfl := Except.ok.inj hwalk
    rw [hhere] at hplace
    cases hplace
  | cons part rest ih =>
    obtain ⟨-, next, hnext, hwalk⟩ := walk_cons_eq_ok.1 hwalk
    cases rest with
    | cons part' rest =>
      rw [List.getLast?_cons_cons]
      exact ih (walk_cons_eq_ok.1 hwalk).1 hwalk
    | nil =>
      obtain rfl := Except.ok.inj hwalk
      have hstay (hdir : t.hasDir next = true) : [part].getLast? = next.getLast? := by
        rw [hdir] at hplace
        cases hplace
      unfold step at hnext
      split at hnext
      · obtain rfl := Except.ok.inj hnext
        exact hstay hhere
      split at hnext
      · split at hnext
        · cases hnext
        · obtain rfl := Except.ok.inj hnext
          exact hstay (hasDir_above here.dropLast_prefix hhere)
      split at hnext
      · cases hnext
      · obtain rfl := Except.ok.inj hnext
        rw [List.getLast?_concat]
        rfl

/-! ### Creating directories -/

theorem createAlong_eq_ok {here parts : List String} (h : t.createAlong here parts = .ok t') :
    t'.files = t.files ∧ t.dirs ⊆ t'.dirs := by
  induction parts generalizing t here with
  | nil =>
    obtain rfl := Except.ok.inj h
    exact ⟨rfl, List.Subset.refl _⟩
  | cons part rest ih =>
    rw [createAlong] at h
    split at h
    · exact ih h
    split at h
    · exact ih h
    split at h
    · cases h
    dsimp only at h
    split at h
    · exact ih h
    split at h
    · cases h
    · obtain ⟨hfiles, hdirs⟩ := ih h
      exact ⟨hfiles, List.Subset.trans (List.subset_append_left _ _) hdirs⟩

theorem createDirs_eq_ok (h : t.createDirs path = .ok t') :
    t'.files = t.files ∧ t.dirs ⊆ t'.dirs := by
  unfold createDirs at h
  split at h
  · obtain rfl := Except.ok.inj h
    exact ⟨rfl, List.Subset.refl _⟩
  · cases h
  · exact createAlong_eq_ok h

theorem textAt?_createDirs (hrun : t.createDirs path = .ok t') {other : String}
    (h : t.textAt? other = some text) : t'.textAt? other = some text := by
  obtain ⟨hfiles, hdirs⟩ := createDirs_eq_ok hrun
  obtain ⟨place, hplace, htext⟩ := textAt?_eq_some.1 h
  have hmono : t'.HasDirsOf t := fun place hdir => by
    rw [hasDir_iff] at hdir ⊢
    rw [hfiles]
    exact hdir.imp_right (.imp_left fun ⟨dir, hdir, hprefix⟩ => ⟨dir, hdirs hdir, hprefix⟩)
  refine textAt?_eq_some.2 ⟨place, resolve_of_hasDirsOf hmono hplace, ?_⟩
  rw [text?, hfiles]
  exact htext

/-! ### Writing -/

theorem lookup_put {files : List (List String × String)} (place other : List String)
    (text : String) : (put place text files).lookup other =
      if other = place then some text else files.lookup other := by
  induction files with
  | nil =>
    rw [put, List.lookup_cons]
    split <;> simp_all
  | cons file rest ih =>
    obtain ⟨key, old⟩ := file
    rw [put]
    split
    · next hkey =>
      rw [List.lookup_cons, List.lookup_cons, hkey]
      split <;> simp_all
    · next hkey =>
      rw [List.lookup_cons, List.lookup_cons, ih]
      split <;> simp_all

theorem exists_mem_put {files : List (List String × String)} {file : List String × String}
    (h : file ∈ files) (place : List String) (text : String) :
    ∃ file' ∈ put place text files, file'.1 = file.1 := by
  induction files with
  | nil => cases h
  | cons first rest ih =>
    obtain ⟨key, old⟩ := first
    rw [put]
    obtain rfl | h := List.mem_cons.1 h
    · split
      · next hkey => exact ⟨_, List.mem_cons_self, hkey.symm⟩
      · exact ⟨_, List.mem_cons_self, rfl⟩
    · split
      · exact ⟨file, List.mem_cons_of_mem _ h, rfl⟩
      · obtain ⟨file', hfile', heq⟩ := ih h
        exact ⟨file', List.mem_cons_of_mem _ hfile', heq⟩

theorem write_eq_ok :
    t.write path text = .ok t' ↔
      ∃ place, t.resolve path = .ok place ∧ t.hasDir place = false ∧
        t' = { t with files := put place text t.files } := by
  rw [write, Outcome.bind_eq_ok]
  refine exists_congr fun place => and_congr_right fun _ => ?_
  cases t.hasDir place with
  | true => exact iff_of_false nofun fun h => nomatch h.1
  | false => exact ⟨fun h => ⟨rfl, (Except.ok.inj h).symm⟩, fun h => congrArg _ h.2.symm⟩

theorem hasDirsOf_put : { t with files := put place text t.files }.HasDirsOf t := by
  intro above habove
  rw [hasDir_iff] at habove ⊢
  refine habove.imp_right (.imp_right fun ⟨file, hfile, habove⟩ => ?_)
  obtain ⟨file', hfile', heq⟩ := exists_mem_put hfile place text
  exact ⟨file', hfile', heq ▸ habove⟩

theorem last_of_resolve (hplace : t.hasDir place = false) (h : t.resolve path = .ok place) :
    place.getLast? = some (String.ofList (Path.last path)) := by
  unfold resolve at h
  split at h
  · cases h
  · rw [← getLast?_of_walk (hasDir_iff.2 (.inl rfl)) hplace h, Path.getLast?_parts]

theorem textAt?_write (h : t.write path text = .ok t') : t'.textAt? path = some text := by
  obtain ⟨place, hplace, -, rfl⟩ := write_eq_ok.1 h
  refine textAt?_eq_some.2 ⟨place, resolve_of_hasDirsOf hasDirsOf_put hplace, ?_⟩
  rw [text?, lookup_put, if_pos rfl]

theorem textAt?_write_of_ne (hwrite : t.write path text = .ok t') {other old : String}
    (hne : Path.last other ≠ Path.last path) (h : t.textAt? other = some old) :
    t'.textAt? other = some old := by
  obtain ⟨place, hplace, hdir, rfl⟩ := write_eq_ok.1 hwrite
  obtain ⟨place', hplace', htext⟩ := textAt?_eq_some.1 h
  refine textAt?_eq_some.2 ⟨place', resolve_of_hasDirsOf hasDirsOf_put hplace', ?_⟩
  rw [text?, lookup_put, if_neg fun heq => ?_]
  · exact htext
  · obtain rfl := heq
    have hlast := (last_of_resolve hdir hplace).symm.trans (last_of_resolve hdir hplace')
    exact hne (String.ofList_injective (Option.some.inj hlast)).symm

/-- What a change of the tree leaves behind. -/
theorem change_cases (f : FileTree → Except FileError FileTree) (t : FileTree) :
    (∃ t', f t = .ok t' ∧ (change f).run t = (.ok (), t')) ∨
      ∃ e, (change f).run t = (.error e, t) := by
  unfold change StateT.run
  dsimp only
  cases f t with
  | ok t' => exact .inl ⟨t', rfl, rfl⟩
  | error e => exact .inr ⟨e, rfl⟩

theorem access_isMap : access.IsMap textAt? where
  isFile_state _ _ := rfl
  entries_state _ _ := rfl
  readText_state _ _ := rfl
  readText_ok h := congrArg Except.toOption h
  createDirs_keeps {dir t _ _} h := by
    obtain ⟨t', hrun, hchange⟩ | ⟨e, hchange⟩ := change_cases (·.createDirs dir) t
    · exact congrArg Prod.snd hchange ▸ textAt?_createDirs hrun h
    · exact congrArg Prod.snd hchange ▸ h
  write_ok {path text t} h := by
    obtain ⟨t', hrun, hchange⟩ | ⟨e, hchange⟩ := change_cases (·.write path text) t
    · exact congrArg Prod.snd hchange ▸ textAt?_write hrun
    · exact nomatch (congrArg Prod.fst hchange).symm.trans h
  write_keeps {path text t _ _} hne h := by
    obtain ⟨t', hrun, hchange⟩ | ⟨e, hchange⟩ := change_cases (·.write path text) t
    · exact congrArg Prod.snd hchange ▸ textAt?_write_of_ne hrun hne h
    · exact congrArg Prod.snd hchange ▸ h

end FileTree

end CellAbi
