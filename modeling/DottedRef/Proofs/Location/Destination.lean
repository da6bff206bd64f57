import DottedRef.Location
import DottedRef.Proofs.Text.Parts

/-
  This file states where a path leads from a directory of a
  tree without links, and proves that the shortest path to a
  place keeps that and is the same for no other place.

  Directories are lists of names from the root down. A place
  counted from the current directory leads somewhere else
  than any other place, if only the directory is deep enough
  and its names are not those of the place.

  Main declarations:
    * `Location.destination`
    * `Location.IsName`
    * `Location.SamePlace`
    * `Location.destination_eq_below`
    * `Location.ofPath_toPath`
    * `Location.eq_of_below_eq`
    * `Location.destination_normalizePath`
    * `Location.normalizePath_eq_iff`
-/

namespace DottedRef

namespace Location

------------------------------------------------------------
-- Destinations
------------------------------------------------------------

/-
  Where one part of a path leads from a directory. The root is
  its own parent.
-/
def enter
    (directory : List String)
    (part : String) : List String :=
  if part = "" ∨ part = "." then
    directory
  else if part = ".." then
    directory.dropLast
  else
    directory ++ [part]

/-
  Where a path leads from a directory, going by what stands
  between its slashes. A path that starts with a slash leads
  to the same from all of them.
-/
def destination
    (path : String)
    (directory : List String) : List String :=
  ((path.toList.splitOn '/').map String.ofList).foldl enter
    (if path.toList.head? = some '/' then [] else directory)

/- The name of something in a directory. -/
def IsName
    (part : String) : Prop :=
  part ≠ "" ∧ part ≠ "." ∧ part ≠ ".." ∧ '/' ∉ part.toList

instance
    (part : String) :
    Decidable (IsName part) := by
  unfold IsName
  infer_instance

/- Paths name the same place if they lead to it from anywhere. -/
def SamePlace
    (first last : String) : Prop :=
  ∀ directory, (∀ name ∈ directory, IsName name) →
    destination first directory = destination last directory

/- What a place is for one who is in a directory. -/
def below
    (directory : List String) : Location → List String
  | absolute names => names
  | relative climbs names =>
      directory.take (directory.length - climbs) ++ names

/- Going up from a place is going up from what it is. -/
theorem below_parent
    (directory : List String)
    (location : Location) :
    location.parent.below directory =
      (location.below directory).dropLast := by
  cases location with
  | absolute names => rfl
  | relative climbs names =>
      cases names with
      | nil =>
          simp only [parent, below, List.append_nil]
          rw [List.dropLast_eq_take, List.take_take,
            List.length_take]
          congr 1
          omega
      | cons name names =>
          simp only [parent, below]
          rw [List.dropLast_append_of_ne_nil
            (List.cons_ne_nil name names)]

/- Going down from a place is going down from what it is. -/
theorem below_child
    (directory : List String)
    (name : String)
    (location : Location) :
    (location.child name).below directory =
      location.below directory ++ [name] := by
  cases location with
  | absolute names => rfl
  | relative climbs names =>
      simp only [child, below, List.append_assoc]

/- Following a part leads to where the part leads. -/
theorem below_follow
    (directory : List String)
    (location : Location)
    (part : String) :
    (location.follow part).below directory =
      enter (location.below directory) part := by
  unfold follow enter
  split
  · rfl
  · split
    · exact below_parent directory location
    · exact below_child directory part location

/- Following parts leads to where the parts lead. -/
theorem below_foldl_follow
    (directory : List String)
    (location : Location)
    (parts : List String) :
    (parts.foldl follow location).below directory =
      parts.foldl enter (location.below directory) := by
  induction parts generalizing location with
  | nil => rfl
  | cons part parts ih =>
      rw [List.foldl_cons, List.foldl_cons, ih, below_follow]

/- A path leads to the place that it names. -/
theorem destination_eq_below
    (path : String)
    (directory : List String) :
    destination path directory =
      (ofPath path).below directory := by
  unfold destination ofPath parts isRooted
  rw [below_foldl_follow, Text.split_eq_splitOn]
  congr 1
  by_cases hRooted : path.toList.head? = some '/'
  · rw [if_pos hRooted, if_pos (by simpa using hRooted)]
    rfl
  · rw [if_neg hRooted, if_neg (by simpa using hRooted)]
    simp [below]

------------------------------------------------------------
-- Names
------------------------------------------------------------

/- The names that lead down to a place. -/
def names : Location → List String
  | absolute names => names
  | relative _ names => names

/- A place is proper if it is reached by names alone. -/
def IsProper
    (location : Location) : Prop :=
  ∀ name ∈ location.names, IsName name

/- Following a part that holds no slash keeps a place proper. -/
theorem IsProper.follow
    {location : Location}
    {part : String}
    (h : location.IsProper)
    (hPart : '/' ∉ part.toList) :
    (location.follow part).IsProper := by
  unfold Location.follow
  split
  · exact h
  · rename_i hStays
    rw [not_or] at hStays
    split
    · -- The names that are left have been there before.
      have hSublist :
          location.parent.names.Sublist location.names := by
        cases location with
        | absolute names => exact List.dropLast_sublist names
        | relative climbs names =>
            cases names with
            | nil => exact List.Sublist.refl []
            | cons name names =>
                exact List.dropLast_sublist (name :: names)
      intro name hMem
      exact h name (hSublist.subset hMem)
    · rename_i hClimbs
      have hNames :
          (location.child part).names =
            location.names ++ [part] := by
        cases location <;> rfl
      intro name hMem
      rw [hNames, List.mem_append, List.mem_singleton] at hMem
      rcases hMem with hMem | rfl
      · exact h name hMem
      · exact ⟨hStays.1, hStays.2, hClimbs, hPart⟩

/- The parts of a path hold no slash. -/
theorem slash_not_mem_of_mem_parts
    {path part : String}
    (h : part ∈ parts path) :
    '/' ∉ part.toList := by
  rcases List.mem_map.mp h with ⟨text, hText, rfl⟩
  rw [String.toList_ofList]
  intro hMem
  exact (Text.mem_of_mem_split hText hMem).2 rfl

/- Every path names a proper place. -/
theorem isProper_ofPath
    (path : String) :
    (ofPath path).IsProper := by
  have hFold :
      ∀ (parts : List String) (location : Location),
        (∀ part ∈ parts, '/' ∉ part.toList) →
          location.IsProper →
            (parts.foldl Location.follow location).IsProper := by
    intro parts
    induction parts with
    | nil =>
        intro location _ hProper
        exact hProper
    | cons part parts ih =>
        intro location hParts hProper
        rw [List.forall_mem_cons] at hParts
        exact ih _ hParts.2 (hProper.follow hParts.1)
  unfold ofPath
  apply hFold
  · intro part hPart
    exact slash_not_mem_of_mem_parts hPart
  · intro name hMem
    cases hRooted : isRooted path <;>
      simp [hRooted, names] at hMem

------------------------------------------------------------
-- Shortest Paths
------------------------------------------------------------

/- Parts without slashes are found again in their path. -/
theorem parts_intercalate
    {names : List String}
    (hNames : ∀ name ∈ names, '/' ∉ name.toList)
    (hNonempty : names ≠ []) :
    parts ("/".intercalate names) = names := by
  have hSplit :
      Text.split '/' (['/'].intercalate (names.map String.toList)) =
        names.map String.toList := by
    apply Text.split_intercalate
    · intro text hText
      rcases List.mem_map.mp hText with ⟨name, hName, rfl⟩
      exact hNames name hName
    · simpa using hNonempty
  unfold parts
  rw [String.toList_intercalate]
  refine (congrArg _ hSplit).trans ?_
  rw [List.map_map]
  refine (List.map_congr_left ?_).trans (List.map_id names)
  intro name _
  exact String.ofList_toList

/- A slash in front adds an empty part. -/
theorem parts_slash
    (path : String) :
    parts ("/" ++ path) = "" :: parts path := by
  unfold parts
  rw [String.toList_append]
  rfl

/- Following names goes down by all of them. -/
theorem foldl_follow_names
    {added : List String}
    (hNames : ∀ name ∈ added, IsName name)
    (location : Location) :
    added.foldl follow location =
      match location with
      | absolute names => absolute (names ++ added)
      | relative climbs names =>
          relative climbs (names ++ added) := by
  induction added generalizing location with
  | nil => cases location <;> simp
  | cons name added ih =>
      rw [List.forall_mem_cons] at hNames
      rcases hNames with ⟨⟨hEmpty, hDot, hClimbs, -⟩, hRest⟩
      have hFollow :
          location.follow name = location.child name := by
        unfold follow
        rw [if_neg (by simp [hEmpty, hDot]), if_neg hClimbs]
      rw [List.foldl_cons, hFollow, ih hRest]
      cases location <;> simp [child]

/- Following climbs from the current directory climbs. -/
theorem foldl_follow_climbs
    (climbs more : Nat) :
    (List.replicate more "..").foldl follow
        (relative climbs []) =
      relative (climbs + more) [] := by
  induction more generalizing climbs with
  | zero => rfl
  | succ more ih =>
      have hFollow :
          (relative climbs []).follow ".." =
            relative (climbs + 1) [] := by
        rfl
      rw [List.replicate_succ, List.foldl_cons, hFollow, ih]
      congr 1
      omega

/- A path that starts with a name does not start at the root. -/
theorem isRooted_intercalate
    {names : List String}
    (hNames :
      ∀ name ∈ names, name ≠ "" ∧ '/' ∉ name.toList) :
    isRooted ("/".intercalate names) = false := by
  unfold isRooted
  rw [beq_eq_false_iff_ne]
  intro hHead
  cases names with
  | nil => simp at hHead
  | cons name names =>
      rcases hNames name List.mem_cons_self with
        ⟨hNonempty, hSlash⟩
      have hFirst :
          ("/".intercalate (name :: names)).toList.head? =
            name.toList.head? := by
        by_cases hRest : names = []
        · subst hRest
          rw [String.intercalate_singleton]
        · have hText : name.toList ≠ [] := by
            rw [Ne, String.toList_eq_nil_iff]
            exact hNonempty
          rw [String.intercalate_cons_of_ne_nil hRest,
            String.toList_append, String.toList_append,
            List.append_assoc, List.head?_append,
            List.head?_eq_some_head hText]
          rfl
      rw [hFirst] at hHead
      exact hSlash (List.mem_of_head? hHead)

/- The shortest path to a proper place names it. -/
theorem ofPath_toPath
    {location : Location}
    (h : location.IsProper) :
    ofPath location.toPath = location := by
  cases location with
  | absolute names =>
      have hRooted :
          isRooted ("/" ++ "/".intercalate names) = true := by
        unfold isRooted
        rw [String.toList_append]
        rfl
      unfold ofPath toPath
      rw [hRooted, if_pos rfl, parts_slash, List.foldl_cons]
      by_cases hNames : names = []
      · subst hNames
        rfl
      · have hParts : ∀ name ∈ names, '/' ∉ name.toList := by
          intro name hMem
          exact (h name hMem).2.2.2
        rw [parts_intercalate hParts hNames]
        exact foldl_follow_names h (absolute [])
  | relative climbs names =>
      have hParts :
          ∀ part ∈ List.replicate climbs ".." ++ names,
            part ≠ "" ∧ '/' ∉ part.toList := by
        intro part hMem
        rcases List.mem_append.mp hMem with hMem | hMem
        · rw [List.eq_of_mem_replicate hMem]
          decide
        · exact ⟨(h part hMem).1, (h part hMem).2.2.2⟩
      unfold ofPath toPath
      rw [isRooted_intercalate hParts]
      by_cases hNonempty :
          List.replicate climbs ".." ++ names = []
      · rw [List.append_eq_nil_iff,
          List.replicate_eq_nil_iff] at hNonempty
        rcases hNonempty with ⟨rfl, rfl⟩
        rfl
      · have hSlash :
            ∀ part ∈ List.replicate climbs ".." ++ names,
              '/' ∉ part.toList := by
          intro part hMem
          exact (hParts part hMem).2
        rw [parts_intercalate hSlash hNonempty,
          List.foldl_append, if_neg Bool.false_ne_true,
          foldl_follow_climbs, Nat.zero_add]
        exact foldl_follow_names h (relative climbs [])

------------------------------------------------------------
-- Telling Places Apart
------------------------------------------------------------

/- Names that begin with climbs worth of one name hold it. -/
theorem head?_of_replicate_append_eq
    {fewer more : Nat}
    {name : String}
    {first last : List String}
    (hFewer : fewer < more)
    (h :
      List.replicate more name ++ first =
        List.replicate fewer name ++ last) :
    last.head? = some name := by
  have hMore :
      List.replicate more name =
        List.replicate fewer name ++
          List.replicate (more - fewer) name := by
    rw [List.replicate_append_replicate]
    congr 1
    omega
  rw [hMore, List.append_assoc, List.append_cancel_left_eq] at h
  rw [← h, List.head?_append, List.head?_replicate,
    if_neg (by omega)]
  rfl

/-
  A deep directory of one name tells places apart that are
  counted from it with different climbs, unless the one with
  more climbs goes on with that name.
-/
theorem head?_of_below_eq
    {depth fewer more : Nat}
    {name : String}
    {first last : List String}
    (hFewer : fewer < more)
    (hDepth : more ≤ depth)
    (h :
      (relative fewer first).below
          (List.replicate depth name) =
        (relative more last).below
          (List.replicate depth name)) :
    last.head? = some name := by
  simp only [below, List.length_replicate,
    List.take_replicate] at h
  apply head?_of_replicate_append_eq ?_ h
  omega

/- No place below the root is the same from everywhere. -/
theorem below_absolute_ne_below_relative
    {climbs depth : Nat}
    {name : String}
    {first last : List String}
    (hDepth : first.length + climbs < depth) :
    (absolute first).below (List.replicate depth name) ≠
      (relative climbs last).below
        (List.replicate depth name) := by
  intro h
  have hLength := congrArg List.length h
  simp only [below, List.length_replicate,
    List.length_append, List.length_take] at hLength
  omega

/- Places with different climbs are told apart from deep down. -/
theorem below_relative_ne_below_relative
    {fewer more : Nat}
    {first last : List String}
    (hFewer : fewer < more) :
    ∃ name, IsName name ∧
      (relative fewer first).below
          (List.replicate more name) ≠
        (relative more last).below
          (List.replicate more name) := by
  -- One of two names is not the first below the climbs.
  by_cases hHead : last.head? = some "a"
  · refine ⟨"b", by decide, ?_⟩
    intro hSame
    rw [head?_of_below_eq hFewer (Nat.le_refl _) hSame,
      Option.some.injEq] at hHead
    exact absurd hHead (by decide)
  · refine ⟨"a", by decide, ?_⟩
    intro hSame
    exact
      hHead (head?_of_below_eq hFewer (Nat.le_refl _) hSame)

/- A directory of one name is one of names. -/
theorem isName_of_mem_replicate
    {depth : Nat}
    {name : String}
    (h : IsName name) :
    ∀ other ∈ List.replicate depth name, IsName other := by
  intro other hMem
  rw [List.eq_of_mem_replicate hMem]
  exact h

/- A place is told from others by what it is from anywhere. -/
theorem eq_of_below_eq
    {first last : Location}
    (h :
      ∀ directory, (∀ name ∈ directory, IsName name) →
        first.below directory = last.below directory) :
    first = last := by
  have hDeep :
      ∀ (depth : Nat) (name : String), IsName name →
        first.below (List.replicate depth name) =
          last.below (List.replicate depth name) := by
    intro depth name hName
    exact h _ (isName_of_mem_replicate hName)
  have hA : IsName "a" := by decide
  cases first with
  | absolute names =>
      cases last with
      | absolute others =>
          exact congrArg absolute (hDeep 0 "a" hA)
      | relative climbs others =>
          exact
            absurd (hDeep (names.length + climbs + 1) "a" hA)
              (below_absolute_ne_below_relative (by omega))
  | relative climbs names =>
      cases last with
      | absolute others =>
          exact
            absurd
              (hDeep (others.length + climbs + 1) "a" hA).symm
              (below_absolute_ne_below_relative (by omega))
      | relative more others =>
          rcases Nat.lt_trichotomy climbs more with
            hLess | rfl | hMore
          · rcases below_relative_ne_below_relative hLess with
              ⟨name, hName, hNe⟩
            exact absurd (hDeep more name hName) hNe
          · have hNames := hDeep climbs "a" hA
            simp only [below, List.length_replicate,
              List.append_cancel_left_eq] at hNames
            rw [hNames]
          · rcases below_relative_ne_below_relative hMore with
              ⟨name, hName, hNe⟩
            exact absurd (hDeep climbs name hName).symm hNe

------------------------------------------------------------
-- Normalized Paths
------------------------------------------------------------

/- A normalized path names the place that the path names. -/
theorem ofPath_normalizePath
    (path : String) :
    ofPath (normalizePath path) = ofPath path :=
  ofPath_toPath (isProper_ofPath path)

/- A normalized path leads where the path leads. -/
theorem destination_normalizePath
    (path : String)
    (directory : List String) :
    destination (normalizePath path) directory =
      destination path directory := by
  rw [destination_eq_below, destination_eq_below,
    ofPath_normalizePath]

/- Paths are normalized alike if they name the same place. -/
theorem normalizePath_eq_iff
    {first last : String} :
    normalizePath first = normalizePath last ↔
      SamePlace first last := by
  constructor
  · intro h directory _
    rw [← destination_normalizePath first, h,
      destination_normalizePath]
  · intro h
    have hPlace : ofPath first = ofPath last := by
      apply eq_of_below_eq
      intro directory hNames
      rw [← destination_eq_below, ← destination_eq_below]
      exact h directory hNames
    unfold normalizePath
    rw [hPlace]

/- Going up from the root stays there, and elsewhere climbs. -/
example :
    normalizePath "/../a/./b.json" = "/a/b.json" ∧
      normalizePath "a/../../b.json" = "../b.json" := by
  decide

end Location

end DottedRef
