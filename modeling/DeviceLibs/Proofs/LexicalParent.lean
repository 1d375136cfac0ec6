import DeviceLibs.Files.Path
import DeviceLibs.Proofs.Pieces
import DeviceLibs.Text.Cut
import Mathlib.Data.List.TakeWhile

/-!
# Lexical parents

The components of a path are the root, if a slash stands at its start, and its names. Its parent is the
shortest beginning of its text that has all components but the last name (`IsParentOf`): a matter of the
text alone, in which `..` is a name. `Path.climbs_ancestors` says that `ancestors` lists a path, its
parent, the parent of that, and so on, up to a path that has none.
-/

namespace DeviceLibs

namespace Path

/-- A part of a path. -/
inductive Component where
  | root
  | name (text : List Char)
  deriving DecidableEq

/-- The pieces that count, behind the first. -/
def namesOf (pieces : List (List Char)) : List Component :=
  (pieces.filter fun piece => !isIdle piece).map .name

/-- The components that pieces between slashes stand for. In front, an empty piece with a slash behind it
is the root, and a dot counts. -/
def componentsOf : List (List Char) → List Component
  | [] | [[]] => []
  | [] :: rest => .root :: namesOf rest
  | first :: rest => .name first :: namesOf rest

def components (p : Path) : List Component := componentsOf (p.text.toList.splitOn '/')

/-- `q` is the text of `p` up to its last name, without the slashes and dots before that. -/
structure IsParentOf (q p : Path) : Prop where
  components : ∃ last, p.components = q.components ++ [.name last]
  begins : q.text.toList <+: p.text.toList
  shortest : ∀ r : Path, r.text.toList <+: p.text.toList → r.components = q.components →
    q.text.length ≤ r.text.length

/-- The path, its parent, the parent of that, and so on, up to one that has none. -/
inductive Climbs : Path → List Path → Prop where
  | top {p : Path} (h : ∀ q, ¬ IsParentOf q p) : Climbs p [p]
  | up {p q : Path} {above : List Path} (h : IsParentOf q p) (hq : Climbs q above) :
    Climbs p (p :: above)

variable {p q r : Path} {root : List Char} {lead : List Component}
  {pieces idles init : List (List Char)} {last : List Char}

theorem eq_of_toList (h : q.text.toList = r.text.toList) : q = r := by
  cases q
  cases r
  exact congrArg Path.mk (String.toList_injective h)

theorem IsParentOf.unique (hq : IsParentOf q p) (hr : IsParentOf r p) : q = r := by
  have hcomponents : r.components = q.components := by
    obtain ⟨a, ha⟩ := hq.components
    obtain ⟨b, hb⟩ := hr.components
    exact (List.append_inj' (hb.symm.trans ha) rfl).1
  have hlength : q.text.toList.length = r.text.toList.length := by
    rw [String.length_toList, String.length_toList]
    exact Nat.le_antisymm (hq.shortest r hr.begins hcomponents)
      (hr.shortest q hq.begins hcomponents.symm)
  have hbegins : q.text.toList <+: r.text.toList :=
    List.prefix_of_prefix_length_le hq.begins hr.begins (Nat.le_of_eq hlength)
  exact eq_of_toList (hbegins.eq_of_length hlength)

theorem Climbs.unique {ps qs : List Path} (hps : Climbs p ps) (hqs : Climbs p qs) : ps = qs := by
  induction hps generalizing qs with
  | top h =>
    cases hqs with
    | top _ => rfl
    | up h' _ => exact absurd h' (h _)
  | up h hq ih =>
    cases hqs with
    | top h' => exact absurd h (h' _)
    | up h' hq' =>
      obtain rfl := h.unique h'
      rw [ih hq']

/-! ### Pieces that do not count -/

theorem isIdle_iff : isIdle last = true ↔ last = [] ∨ last = ['.'] := by
  simp [isIdle]

theorem isIdle_of_isIdle_append {more : List Char} (h : isIdle (last ++ more) = true) :
    isIdle last = true := by
  rw [isIdle_iff] at h ⊢
  rcases h with h | h
  · exact .inl (List.append_eq_nil_iff.mp h).1
  · rcases List.append_eq_singleton_iff.mp h with ⟨hlast, -⟩ | ⟨hlast, -⟩
    · exact .inl hlast
    · exact .inr hlast

theorem namesOf_append (a b : List (List Char)) : namesOf (a ++ b) = namesOf a ++ namesOf b := by
  simp [namesOf]

theorem namesOf_eq_nil_iff : namesOf pieces = [] ↔ ∀ piece ∈ pieces, isIdle piece = true := by
  simp [namesOf]

theorem namesOf_cons_of_not (h : isIdle last = false) :
    namesOf (last :: pieces) = .name last :: namesOf pieces := by
  simp [namesOf, h]

theorem componentsOf_cons (first : List Char) (h : pieces ≠ []) :
    componentsOf (first :: pieces) =
      (if first = [] then .root else .name first) :: namesOf pieces := by
  cases first with
  | nil =>
    obtain ⟨second, rest, rfl⟩ := List.exists_cons_of_ne_nil h
    rfl
  | cons c cs => rfl

/-- No piece that counts nothing is at the end, unless it is the only one or that behind the root. -/
def IsTrimmed (pieces : List (List Char)) : Prop :=
  ∀ init last, pieces = init ++ [last] → isIdle last = true → init = [] ∨ pieces = [[], []]

/-- A name is not a beginning of an idle piece, and idle pieces add nothing behind it. -/
theorem eq_nil_of_namesOf_eq {more : List Char} {rest : List (List Char)}
    (h : namesOf [last] = namesOf ((last ++ more) :: rest)) :
    (isIdle last = true → isIdle (last ++ more) = true) ∧ (isIdle last = false → more = []) ∧
      ∀ piece ∈ rest, isIdle piece = true := by
  cases hlast : isIdle last with
  | true =>
    have hnone : namesOf ((last ++ more) :: rest) = [] := by
      rw [← h, namesOf_eq_nil_iff]
      simpa using hlast
    obtain ⟨hmore, hrest⟩ := List.forall_mem_cons.mp (namesOf_eq_nil_iff.mp hnone)
    exact ⟨fun _ => hmore, by simp, hrest⟩
  | false =>
    have hmore : isIdle (last ++ more) = false := by
      rw [Bool.eq_false_iff] at hlast ⊢
      exact mt isIdle_of_isIdle_append hlast
    rw [namesOf_cons_of_not hlast, namesOf_cons_of_not hmore] at h
    obtain ⟨hname, hrest⟩ := List.cons_eq_cons.mp h
    refine ⟨by simp, fun _ => ?_, namesOf_eq_nil_iff.mp hrest.symm⟩
    simpa using Component.name.inj hname

theorem IsTrimmed.eq_nil {rest : List (List Char)} (h : IsTrimmed (init ++ last :: rest))
    (hrest : ∀ piece ∈ rest, isIdle piece = true) (hlast : init = [] → last ≠ []) : rest = [] := by
  by_contra hne
  obtain ⟨before, final, rfl⟩ := (List.eq_nil_or_concat' rest).resolve_left hne
  have hfinal : isIdle final = true := hrest final (by simp)
  have hpieces : init ++ last :: (before ++ [final]) = (init ++ last :: before) ++ [final] := by
    simp
  rcases h _ _ hpieces hfinal with hnil | hroot
  · simp at hnil
  · cases init with
    | nil => exact hlast rfl (List.cons_eq_cons.mp hroot).1
    | cons piece init =>
      have hlength := congrArg List.length hroot
      simp only [List.length_append, List.length_cons, List.length_nil] at hlength
      omega

/-- Trimmed pieces have a component that those before them do not. -/
theorem IsTrimmed.eq_nil_of_componentsOf_eq {more : List Char} {rest : List (List Char)}
    (hp : IsTrimmed (init ++ (last ++ more) :: rest))
    (h : componentsOf (init ++ [last]) = componentsOf (init ++ (last ++ more) :: rest)) :
    more = [] ∧ rest = [] := by
  cases init with
  | nil =>
    cases last with
    | nil =>
      -- nothing is in front, so nothing is behind it
      cases rest with
      | nil =>
        cases more with
        | nil => exact ⟨rfl, rfl⟩
        | cons c cs => cases h
      | cons second rest =>
        rw [List.nil_append, List.nil_append, componentsOf_cons _ (List.cons_ne_nil second rest)] at h
        cases h
    | cons c cs =>
      obtain ⟨hname, hrest⟩ := List.cons_eq_cons.mp h
      have hmore : more = [] := by simpa using hname
      exact ⟨hmore, hp.eq_nil (namesOf_eq_nil_iff.mp hrest.symm) (by simp)⟩
  | cons piece init =>
    have hnames : namesOf [last] = namesOf ((last ++ more) :: rest) := by
      rw [List.cons_append, List.cons_append, componentsOf_cons _ (by simp),
        componentsOf_cons _ (by simp), namesOf_append, namesOf_append] at h
      exact List.append_cancel_left (List.cons_eq_cons.mp h).2
    obtain ⟨hidle, hname, hrest⟩ := eq_nil_of_namesOf_eq hnames
    obtain rfl := hp.eq_nil hrest (by simp)
    refine ⟨?_, rfl⟩
    cases hlast : isIdle last with
    | true =>
      rcases hp _ _ rfl (hidle hlast) with hnil | hroot
      · cases hnil
      · have hend := (List.append_inj' (show _ ++ [_] = [[]] ++ [[]] from hroot) rfl).2
        exact (List.append_eq_nil_iff.mp (List.cons_eq_cons.mp hend).1).2
    | false => exact hname hlast

/-- A beginning of a trimmed text that has all its components is the whole text. -/
theorem eq_of_components_eq (hp : IsTrimmed (p.text.toList.splitOn '/'))
    (hbegins : r.text.toList <+: p.text.toList) (hr : r.components = p.components) : r = p := by
  obtain ⟨back, hback⟩ := hbegins
  obtain ⟨init, last, first, rest, hfront, hsplit, hboth⟩ :=
    Text.exists_splitOn_append '/' r.text.toList back
  rw [hback] at hboth
  rw [components, components, hfront, hboth] at hr
  rw [hboth] at hp
  obtain ⟨rfl, rfl⟩ := hp.eq_nil_of_componentsOf_eq hr
  have hjoined : ['/'].intercalate (back.splitOn '/') = back := List.intercalate_splitOn '/'
  obtain rfl : [] = back := by rwa [hsplit] at hjoined
  exact eq_of_toList ((List.append_nil _).symm.trans hback)

/-! ### The root and what follows it -/

/-- Pieces that may follow a root, with the components that the root stands for. -/
inductive Rooted : List Char → List Component → List (List Char) → Prop where
  | absolute {pieces : List (List Char)} : Rooted ['/'] [.root] pieces
  | dotted {pieces : List (List Char)} (h : ∀ first ∈ pieces.head?, first = []) :
    Rooted ['.'] [.name ['.']] pieces
  | relative {pieces : List (List Char)}
    (h : ∀ first ∈ pieces.head?, isIdle first = true → pieces = [[]]) : Rooted [] [] pieces

theorem Rooted.of_append {a b : List (List Char)} (h : Rooted root lead (a ++ b)) :
    Rooted root lead a := by
  have hhead : ∀ first ∈ a.head?, first ∈ (a ++ b).head? :=
    fun _ => List.mem_head?_append_of_mem_head?
  cases h with
  | absolute => exact .absolute
  | dotted h => exact .dotted fun first hfirst => h first (hhead first hfirst)
  | relative h =>
    refine .relative fun first hfirst hidle => ?_
    rcases List.append_eq_singleton_iff.mp (h first (hhead first hfirst) hidle) with ⟨rfl, -⟩ | ⟨ha, -⟩
    · cases hfirst
    · exact ha

/-- The text of the path is a root and the pieces behind it. -/
structure IsMadeOf (p : Path) (root : List Char) (lead : List Component)
    (pieces : List (List Char)) : Prop where
  rooted : Rooted root lead pieces
  slash : ∀ piece ∈ pieces, '/' ∉ piece
  text : p.text.toList = root ++ ['/'].intercalate pieces

theorem isMadeOf_splitRoot {body : List Char} (h : splitRoot p.text.toList = (root, body)) :
    ∃ lead, p.IsMadeOf root lead (body.splitOn '/') := by
  suffices hrooted : p.text.toList = root ++ body ∧ ∃ lead, Rooted root lead (body.splitOn '/') by
    obtain ⟨htext, lead, hrooted⟩ := hrooted
    refine ⟨lead, hrooted, fun _ => Text.not_mem_of_mem_splitOn, ?_⟩
    rw [htext, List.intercalate_splitOn]
  unfold splitRoot at h
  split at h
  next rest hchars =>
    cases h
    exact ⟨hchars, _, .absolute⟩
  next hchars =>
    cases h
    exact ⟨hchars, _, .dotted (by simp)⟩
  next rest hchars =>
    cases h
    refine ⟨hchars, _, .dotted ?_⟩
    simp [List.splitOn_cons_eq_if_modifyHead]
  next hslash hdot hdots =>
    cases h
    refine ⟨rfl, _, .relative fun first hfirst hidle => ?_⟩
    obtain ⟨rest, hsplit⟩ := List.head?_eq_some_iff.mp hfirst
    have hchars : p.text.toList = first ++ rest.flatMap ('/' :: ·) := by
      rw [← Text.intercalate_cons, ← hsplit, List.intercalate_splitOn]
    rw [hsplit]
    -- an idle piece in front is what the other cases of the root are about
    rcases isIdle_iff.mp hidle with rfl | rfl <;>
      rcases rest with _ | ⟨second, rest⟩
    · rfl
    · exact absurd hchars (hslash _)
    · exact absurd hchars hdot
    · exact absurd hchars (hdots _)

theorem splitOn_intercalate (hslash : ∀ piece ∈ pieces, '/' ∉ piece) :
    (['/'].intercalate pieces).splitOn '/' = if pieces = [] then [[]] else pieces := by
  split_ifs with h
  · rw [h]
    rfl
  · exact List.splitOn_intercalate '/' hslash h

theorem isTrimmed_cons (first : List Char) (h : ∀ last ∈ pieces.getLast?, isIdle last = false) :
    IsTrimmed (first :: pieces) := by
  intro init last hpieces hidle
  cases init with
  | nil => exact .inl rfl
  | cons piece init =>
    obtain ⟨-, rfl⟩ := List.cons_eq_cons.mp hpieces
    rw [h last List.getLast?_concat] at hidle
    cases hidle

/-- What a root and the pieces behind it are cut into. -/
theorem Rooted.splitOn_eq (h : Rooted root lead pieces) (hslash : ∀ piece ∈ pieces, '/' ∉ piece) :
    componentsOf ((root ++ ['/'].intercalate pieces).splitOn '/') = lead ++ namesOf pieces ∧
      ((∀ last ∈ pieces.getLast?, isIdle last = false) →
        IsTrimmed ((root ++ ['/'].intercalate pieces).splitOn '/')) := by
  have hpieces := splitOn_intercalate hslash
  cases h with
  | absolute =>
    rw [List.singleton_append, List.splitOn_cons_eq_if_modifyHead, if_pos (by decide), hpieces]
    split_ifs with hnil
    · subst hnil
      exact ⟨rfl, fun _ init last _ _ => .inr rfl⟩
    · exact ⟨componentsOf_cons [] hnil, isTrimmed_cons []⟩
  | dotted h =>
    rw [List.singleton_append, List.splitOn_cons_eq_if_modifyHead, if_neg (by decide), hpieces]
    cases pieces with
    | nil => exact ⟨rfl, fun _ => isTrimmed_cons _ (by simp)⟩
    | cons first rest =>
      obtain rfl := h first rfl
      exact ⟨rfl, fun hlast => isTrimmed_cons _ fun last h => hlast last (List.mem_getLast?_cons h)⟩
  | relative h =>
    rw [List.nil_append, hpieces]
    cases pieces with
    | nil => exact ⟨rfl, fun _ => isTrimmed_cons _ (by simp)⟩
    | cons first rest =>
      rw [if_neg (List.cons_ne_nil _ _)]
      refine ⟨?_, fun hlast => isTrimmed_cons _ fun last h => hlast last (List.mem_getLast?_cons h)⟩
      cases hidle : isIdle first with
      | true =>
        obtain ⟨rfl, rfl⟩ := List.cons_eq_cons.mp (h first rfl hidle)
        rfl
      | false =>
        rw [namesOf_cons_of_not hidle]
        cases first with
        | nil => cases hidle
        | cons c cs => rfl

namespace IsMadeOf

variable {a b : List (List Char)}

theorem components (h : p.IsMadeOf root lead pieces) : p.components = lead ++ namesOf pieces := by
  rw [Path.components, h.text, (h.rooted.splitOn_eq h.slash).1]

theorem isTrimmed (h : p.IsMadeOf root lead pieces)
    (hlast : ∀ last ∈ pieces.getLast?, isIdle last = false) :
    IsTrimmed (p.text.toList.splitOn '/') := by
  rw [h.text]
  exact (h.rooted.splitOn_eq h.slash).2 hlast

/-- The beginning that is made of some of the pieces. -/
theorem of_append (h : p.IsMadeOf root lead (a ++ b)) :
    (Path.mk (.ofList (root ++ ['/'].intercalate a))).IsMadeOf root lead a where
  rooted := h.rooted.of_append
  slash piece hpiece := h.slash piece (List.mem_append_left b hpiece)
  text := String.toList_ofList

theorem begins (hp : p.IsMadeOf root lead (a ++ b)) (hq : q.IsMadeOf root lead a) :
    q.text.toList <+: p.text.toList := by
  rw [hp.text, hq.text, List.prefix_append_right_inj]
  cases a with
  | nil => exact List.nil_prefix
  | cons first rest =>
    rw [List.cons_append, Text.intercalate_cons, Text.intercalate_cons, List.flatMap_append,
      ← List.append_assoc]
    exact List.prefix_append _ _

/-- The pieces up to the last name, less the idle ones before it, make the parent. -/
theorem isParentOf (hp : p.IsMadeOf root lead (a ++ b ++ last :: idles))
    (hq : q.IsMadeOf root lead a) (ha : ∀ last ∈ a.getLast?, isIdle last = false)
    (hb : ∀ piece ∈ b, isIdle piece = true) (hlast : isIdle last = false)
    (hidles : ∀ piece ∈ idles, isIdle piece = true) : q.IsParentOf p where
  components := by
    refine ⟨last, ?_⟩
    rw [hp.components, hq.components, namesOf_append, namesOf_append, namesOf_cons_of_not hlast,
      namesOf_eq_nil_iff.mpr hb, namesOf_eq_nil_iff.mpr hidles, List.append_nil, List.append_assoc]
  begins := begins (List.append_assoc a b _ ▸ hp) hq
  shortest r hr hcomponents := by
    have hbegins : q.text.toList <+: p.text.toList := begins (List.append_assoc a b _ ▸ hp) hq
    rw [← String.length_toList, ← String.length_toList]
    rcases List.prefix_or_prefix_of_prefix hbegins hr with h | h
    · exact h.length_le
    · obtain rfl := eq_of_components_eq (hq.isTrimmed ha) h hcomponents
      exact Nat.le_refl _

end IsMadeOf

theorem not_isParentOf (hp : p.components = [] ∨ p.components = [.root]) : ¬ q.IsParentOf p := by
  intro h
  obtain ⟨last, hlast⟩ := h.components
  rcases hp with hp | hp
  · rw [hp] at hlast
    simp at hlast
  · rw [hp] at hlast
    have hend := (List.append_inj' (show [] ++ [_] = _ ++ [_] from hlast) rfl).2
    cases hend

/-- The empty path is the parent of a dot in front. -/
theorem isParentOf_dot (hp : p.components = [.name ['.']]) : IsParentOf ⟨""⟩ p where
  components := ⟨['.'], hp⟩
  begins := List.nil_prefix
  shortest _ _ _ := Nat.zero_le _

theorem reverse_idle (rev : List (List Char)) :
    (rev.dropWhile isIdle).reverse ++ (rev.takeWhile isIdle).reverse = rev.reverse := by
  rw [← List.reverse_append, List.takeWhile_append_dropWhile]

theorem isIdle_of_mem_takeWhile {rev : List (List Char)} :
    ∀ piece ∈ (rev.takeWhile isIdle).reverse, isIdle piece = true :=
  fun _ hpiece => List.mem_takeWhile_imp (List.mem_reverse.mp hpiece)

theorem not_isIdle_of_getLast? {rev : List (List Char)} :
    ∀ last ∈ (rev.dropWhile isIdle).reverse.getLast?, isIdle last = false := by
  intro last hlast
  rw [List.getLast?_reverse] at hlast
  have hhead := List.head?_dropWhile_not isIdle rev
  rwa [Option.mem_def.mp hlast] at hhead

/-- The pieces in reverse are gone through from the end of the text, of which `idles` are done. -/
theorem climbs_parentsOf {rev : List (List Char)}
    (hp : p.IsMadeOf root lead ((rev.dropWhile isIdle).reverse ++ idles))
    (hidles : ∀ piece ∈ idles, isIdle piece = true) : Climbs p (p :: parentsOf root rev) := by
  induction rev generalizing p idles with
  | nil =>
    have hcomponents : p.components = lead := by
      rw [hp.components, List.dropWhile_nil, List.reverse_nil, List.nil_append,
        namesOf_eq_nil_iff.mpr hidles, List.append_nil]
    rw [parentsOf]
    cases hp.rooted with
    | absolute => exact .top fun q => not_isParentOf (.inr hcomponents)
    | dotted h => exact .up (isParentOf_dot hcomponents) (.top fun q => not_isParentOf (.inl rfl))
    | relative h => exact .top fun q => not_isParentOf (.inl hcomponents)
  | cons piece before ih =>
    cases hidle : isIdle piece with
    | true =>
      rw [List.dropWhile_cons_of_pos hidle] at hp
      rw [parentsOf, if_pos hidle]
      exact ih hp hidles
    | false =>
      have hpiece : ¬ isIdle piece = true := by simp [hidle]
      rw [List.dropWhile_cons_of_neg hpiece, List.reverse_cons, List.append_assoc,
        List.singleton_append, ← reverse_idle] at hp
      rw [parentsOf, if_neg hpiece]
      have hq := IsMadeOf.of_append (List.append_assoc _ _ _ ▸ hp)
      refine .up (hp.isParentOf hq not_isIdle_of_getLast? isIdle_of_mem_takeWhile hidle hidles) ?_
      rw [← List.append_nil (before.dropWhile isIdle).reverse] at hq ⊢
      exact ih hq fun _ h => absurd h List.not_mem_nil

/-- The ancestors of a path are the path and its parents, one after the other. -/
theorem climbs_ancestors (p : Path) : Climbs p p.ancestors := by
  rw [ancestors, parents]
  cases hsplit : splitRoot p.text.toList with
  | mk root body =>
    obtain ⟨lead, hp⟩ := isMadeOf_splitRoot hsplit
    rw [← List.reverse_reverse (body.splitOn '/'), ← reverse_idle] at hp
    exact climbs_parentsOf hp isIdle_of_mem_takeWhile

end Path

end DeviceLibs
