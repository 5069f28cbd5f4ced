import Parley.Catalog.Basic
import Parley.Proofs.Catalog.Version
import Parley.Proofs.Keyed
import Parley.Proofs.Sort
import Mathlib.Data.List.Induction
import Mathlib.Data.List.Nodup
/-!
# The latest version of a flow

A catalog keeps the versions of a code in no order of its own, and the latest one is found by going
through them. The same flow is found in every order exactly if it comes after each of the others
(`settled_iff`), and in every choice of versions there is such a flow exactly if no two of them are
spellings of one number and no text tears two numbers (`orderly_iff`). Then the list of all flows has
one order only (`flows_eq_iff`). Where a text tears two numbers, the order in which the versions
happen to be gone through decides.
-/
namespace Parley.Catalog
variable {flows : List Flow} {code : String} {f g : Flow}

/-! ## What is kept -/

/-- The versions of a code and their flows. -/
def versions (catalog : Catalog) (code : String) : Keyed Flow :=
  (Keyed.get? code catalog.codes).getD []

/-- The flows of a code. -/
def stored (catalog : Catalog) (code : String) : List Flow :=
  (catalog.versions code).map Prod.snd

/-- No two flows have both the code and the version in common. -/
def Distinct (flows : List Flow) : Prop :=
  (flows.map fun f => (f.code, f.version)).Nodup

/-- The flows of a code among all that are put in. -/
def ofCode (code : String) (flows : List Flow) : List Flow :=
  flows.filter fun f => f.code == code

@[simp] theorem mem_ofCode : f ∈ ofCode code flows ↔ f ∈ flows ∧ f.code = code := by
  simp [ofCode]

theorem Distinct.perm {inserted : List Flow} (distinct : Distinct flows)
    (order : inserted.Perm flows) : Distinct inserted :=
  (order.map _).nodup_iff.mpr distinct

theorem Distinct.sublist {part : List Flow} (distinct : Distinct flows)
    (taken : part.Sublist flows) : Distinct part :=
  List.Nodup.sublist (taken.map _) distinct

theorem Distinct.eq (distinct : Distinct flows) (first : f ∈ flows) (second : g ∈ flows)
    (code : f.code = g.code) (version : f.version = g.version) : f = g :=
  List.inj_on_of_nodup_map distinct first second (Prod.ext code version)

theorem Distinct.nodup (distinct : Distinct flows) : flows.Nodup :=
  List.Nodup.of_map _ distinct

theorem versions_insert (catalog : Catalog) (f : Flow) :
    (catalog.insert f).versions code =
      if f.code = code then Keyed.insert f.version f (catalog.versions code)
      else catalog.versions code := by
  split
  · next same =>
    subst same
    simp [versions, insert, Keyed.get?_insert_self]
  · next other =>
    simp [versions, insert, Keyed.get?_insert_of_ne _ _ (Ne.symm other)]

theorem ofFlows_concat (flows : List Flow) (f : Flow) :
    ofFlows (flows ++ [f]) = (ofFlows flows).insert f := by
  simp [ofFlows]

/-- Each flow is kept once, under its code and its version. -/
theorem versions_perm (distinct : Distinct flows) (code : String) :
    ((ofFlows flows).versions code).Perm ((ofCode code flows).map fun f => (f.version, f)) := by
  induction flows using List.reverseRecOn with
  | nil => exact .refl _
  | append_singleton flows f ih =>
    have kept := ih (distinct.sublist (List.sublist_append_left ..))
    rw [ofFlows_concat, versions_insert]
    by_cases same : f.code = code
    · have fresh : Keyed.get? f.version ((ofFlows flows).versions code) = none := by
        rw [Option.eq_none_iff_forall_ne_some]
        intro g found
        obtain ⟨g', member, entry⟩ := List.mem_map.mp (kept.mem_iff.mp (Keyed.mem_of_get? found))
        obtain ⟨old, code'⟩ := mem_ofCode.mp member
        have equal := distinct.eq (List.mem_append_left _ old) (List.mem_append_right _ (by simp))
          (code'.trans same.symm) (Prod.mk.inj entry).1
        rw [equal] at old
        exact (List.nodup_append.mp distinct.nodup).2.2 f old f (by simp) rfl
      have added : (Keyed.insert f.version f ((ofFlows flows).versions code)).Perm
          ((f.version, f) :: (ofFlows flows).versions code) := Keyed.insert_perm fresh
      have front := added.trans (kept.cons _)
      simpa [ofCode, same] using front.trans (List.perm_append_singleton ..).symm
    · simpa [ofCode, same] using kept

theorem stored_perm (distinct : Distinct flows) (code : String) :
    ((ofFlows flows).stored code).Perm (ofCode code flows) := by
  simpa [stored, Function.comp_def] using (versions_perm distinct code).map Prod.snd

theorem load_iff (catalog : Catalog) :
    catalog.load code none = .ok f ↔ latest (catalog.stored code) = some f := by
  unfold load stored versions
  cases Keyed.get? code catalog.codes with
  | none => simp [latest]
  | some versions => cases found : latest (versions.map Prod.snd) <;> simp [found]

/-! ## The latest one -/

/-- The flow that is found without a version, in whatever order the flows were put in and the
versions of the code are gone through. -/
def Settled (flows : List Flow) (code : String) (f : Flow) : Prop :=
  ∀ inserted : List Flow, inserted.Perm flows →
    (ofFlows inserted).load code none = .ok f ∧
    ∀ order : List Flow, order.Perm ((ofFlows inserted).stored code) → latest order = some f

/-- The flow comes after every other one of the code. -/
def Greatest (flows : List Flow) (code : String) (f : Flow) : Prop :=
  f ∈ ofCode code flows ∧
    ∀ g ∈ ofCode code flows, g ≠ f → Version.before g.version f.version = true

theorem later_eq_or (f g : Flow) : later f g = f ∨ later f g = g := by
  unfold later
  split
  · exact .inl rfl
  · exact .inr rfl

theorem foldl_later_mem (f : Flow) (rest : List Flow) : rest.foldl later f ∈ f :: rest := by
  induction rest generalizing f with
  | nil => exact List.mem_singleton.mpr rfl
  | cons g rest ih =>
    rcases List.mem_cons.mp (ih (later f g)) with same | later'
    · rw [List.foldl_cons, same]
      rcases later_eq_or f g with left | right
      · simp [left]
      · simp [right]
    · exact List.mem_cons_of_mem _ (List.mem_cons_of_mem _ later')

/-- A flow that comes after all others is found, wherever it stands. -/
theorem foldl_later_greatest {first : Flow} {rest : List Flow} (member : f ∈ first :: rest)
    (greatest : ∀ g ∈ first :: rest, g ≠ f → Version.before g.version f.version = true) :
    rest.foldl later first = f := by
  induction rest generalizing first with
  | nil => exact (List.mem_singleton.mp member).symm
  | cons g rest ih =>
    have found : f = first ∨ f = g → later first g = f := by
      rintro (rfl | rfl)
      · by_cases same : g = f
        · rw [same]
          exact (later_eq_or f f).elim id id
        · exact if_pos (greatest g (by simp) same)
      · by_cases same : first = f
        · rw [same]
          exact (later_eq_or f f).elim id id
        · exact if_neg (Version.before_asymm (greatest first (by simp) same))
    rw [List.foldl_cons]
    refine ih ?_ fun h held => ?_
    · rcases List.mem_cons.mp member with front | behind
      · exact found (.inl front) ▸ List.mem_cons_self ..
      · rcases List.mem_cons.mp behind with second | deep
        · exact found (.inr second) ▸ List.mem_cons_self ..
        · exact List.mem_cons_of_mem _ deep
    · refine greatest h ?_
      rcases List.mem_cons.mp held with rfl | deep
      · rcases later_eq_or first g with left | right
        · simp [left]
        · simp [right]
      · exact List.mem_cons_of_mem _ (List.mem_cons_of_mem _ deep)

theorem latest_greatest {order : List Flow} (member : f ∈ order)
    (greatest : ∀ g ∈ order, g ≠ f → Version.before g.version f.version = true) :
    latest order = some f := by
  cases order with
  | nil => exact absurd member List.not_mem_nil
  | cons first rest => exact congrArg some (foldl_later_greatest member greatest)

/-- Of two flows the second one takes the place of the first unless it comes before it. -/
private theorem overtaken {rest : List Flow} (behind : ¬ Version.before g.version f.version = true)
    (once : (f :: g :: rest).Nodup) : latest (f :: g :: rest) ≠ some f := by
  intro found
  have passed : later f g = g := if_neg behind
  simp only [latest, List.foldl_cons, passed, Option.some.injEq] at found
  exact (List.nodup_cons.mp once).1 (found ▸ foldl_later_mem g rest)

private theorem exists_perm_cons {order : List Flow} (member : f ∈ order) :
    ∃ rest : List Flow, (f :: rest).Perm order := by
  obtain ⟨front, back, rfl⟩ := List.append_of_mem member
  exact ⟨front ++ back, List.perm_middle.symm⟩

/-- The same flow is found in every order exactly if it comes after each of the others. -/
theorem settled_iff (distinct : Distinct flows) : Settled flows code f ↔ Greatest flows code f := by
  constructor
  · intro settled
    have kept := stored_perm distinct code
    obtain ⟨-, found⟩ := settled flows (.refl _)
    have mem : f ∈ ofCode code flows := by
      have stored := found _ (.refl _)
      cases order : (ofFlows flows).stored code with
      | nil => simp [order, latest] at stored
      | cons first rest =>
        simp only [order, latest, Option.some.injEq] at stored
        exact kept.mem_iff.mp (order ▸ stored ▸ foldl_later_mem first rest)
    refine ⟨mem, fun g other different => Decidable.by_contra fun behind => ?_⟩
    -- the order in which `f` is met first and `g` second
    obtain ⟨others, front⟩ := exists_perm_cons mem
    obtain ⟨rest, second⟩ := exists_perm_cons
      ((List.mem_cons.mp (front.mem_iff.mpr other)).resolve_left different)
    have order := (second.cons f).trans front
    exact overtaken behind (order.nodup_iff.mpr (distinct.nodup.filter _))
      (found _ (order.trans kept.symm))
  · rintro ⟨mem, greatest⟩ inserted order
    have kept := stored_perm (distinct.perm order) code
    have same : ∀ g, g ∈ ofCode code inserted ↔ g ∈ ofCode code flows := fun g => by
      simp [order.mem_iff]
    have found : ∀ order : List Flow, order.Perm ((ofFlows inserted).stored code) →
        latest order = some f := fun order perm =>
      have members : ∀ g, g ∈ order ↔ g ∈ ofCode code flows := fun g =>
        ((perm.trans kept).mem_iff).trans (same g)
      latest_greatest ((members f).mpr mem) fun g member => greatest g ((members g).mp member)
    exact ⟨(load_iff _).mpr (found _ (.refl _)), found⟩

/-- Of three flows whose versions are torn each is the latest one in some order. -/
theorem latest_torn {low high text : Flow}
    (torn : Version.Torn low.version high.version text.version) :
    latest [low, high, text] = some text ∧ latest [high, text, low] = some low ∧
      latest [text, low, high] = some high := by
  obtain ⟨up, behind, front⟩ := torn.circle
  simp [latest, later, Version.before_asymm up, Version.before_asymm behind,
    Version.before_asymm front]

/-! ## Which versions have a latest one -/

/-- The versions of a code. -/
def spellings (code : String) (flows : List Flow) : List String :=
  (ofCode code flows).map Flow.version

theorem mem_spellings {version : String} :
    version ∈ spellings code flows ↔ ∃ f ∈ flows, f.code = code ∧ f.version = version := by
  simp [spellings, and_assoc]

/-- In versions that are in order there is one that comes after all others. -/
private theorem exists_greatest {group : List Flow}
    (linear : Version.Linear (group.map Flow.version))
    (once : ∀ f ∈ group, ∀ g ∈ group, f.version = g.version → f = g) (any : group ≠ []) :
    ∃ f ∈ group, ∀ g ∈ group, g ≠ f → Version.before g.version f.version = true := by
  induction group with
  | nil => exact absurd rfl any
  | cons f rest ih =>
    by_cases alone : rest = []
    · exact ⟨f, by simp, by simp [alone]⟩
    obtain ⟨g, member, greatest⟩ := ih (linear.subset (List.subset_cons_self ..))
      (fun f first g second => once f (.tail _ first) g (.tail _ second)) alone
    have inside {h : Flow} (held : h ∈ f :: rest) : h.version ∈ (f :: rest).map Flow.version :=
      List.mem_map_of_mem held
    by_cases same : f = g
    · subst same
      exact ⟨f, by simp, fun h held other => greatest h ((List.mem_cons.mp held).resolve_left other) other⟩
    have different : f.version ≠ g.version := fun version =>
      same (once f (by simp) g (.tail _ member) version)
    rcases linear.total _ (inside (List.mem_cons_self ..)) _ (inside (.tail _ member)) different
      with before | behind
    · refine ⟨g, .tail _ member, fun h held other => ?_⟩
      rcases List.mem_cons.mp held with rfl | deep
      · exact before
      · exact greatest h deep other
    · refine ⟨f, by simp, fun h held other => ?_⟩
      have deep := (List.mem_cons.mp held).resolve_left other
      by_cases last : h = g
      · exact last ▸ behind
      · exact linear.trans _ (inside held) _ (inside (.tail _ member)) _ (inside (by simp))
          (greatest h deep last) behind

/-- Each choice among the versions of a code that leaves any of them has a settled latest one. -/
def AllSettled (flows : List Flow) (code : String) : Prop :=
  ∀ part : List Flow, part.Sublist flows → ofCode code part ≠ [] → ∃ f, Settled part code f

/-- The versions of a code that are among some names: one of them comes after the others. -/
private theorem AllSettled.among (settled : AllSettled flows code) (distinct : Distinct flows)
    (names : List String) {name : String} (member : name ∈ names)
    (kept : name ∈ spellings code flows) :
    ∃ a ∈ names, ∀ b ∈ names, b ∈ spellings code flows → b ≠ a → Version.before b a = true := by
  obtain ⟨f, inside, same, version⟩ := mem_spellings.mp kept
  let part := flows.filter fun f => names.contains f.version
  have taken : part.Sublist flows := List.filter_sublist
  have any : f ∈ ofCode code part := by
    simp [part, inside, same, version, member]
  obtain ⟨g, latest⟩ := settled part taken (List.ne_nil_of_mem any)
  obtain ⟨found, greatest⟩ := (settled_iff (distinct.sublist taken)).mp latest
  have chosen : g.version ∈ names := by
    simpa [part] using (List.mem_filter.mp (mem_ofCode.mp found).1).2
  refine ⟨g.version, chosen, fun b listed stored other => ?_⟩
  obtain ⟨h, held, code', rfl⟩ := mem_spellings.mp stored
  exact greatest h (by simp [part, held, code', listed]) fun equal => other (equal ▸ rfl)

/-- There is a latest version in every choice exactly if no number stands twice and no text tears two
numbers. -/
theorem orderly_iff (distinct : Distinct flows) :
    AllSettled flows code ↔ Version.Orderly (spellings code flows) := by
  constructor
  · intro settled
    constructor
    · rintro a first b second tied
      obtain ⟨left, right⟩ := (Version.tied_iff tied.1).mp tied
      obtain ⟨c, member, greatest⟩ := settled.among distinct [a, b] (by simp) first
      obtain rfl | rfl : c = a ∨ c = b := by simpa using member
      · exact right (greatest b (by simp) second tied.1.symm)
      · exact left (greatest a (by simp) first tied.1)
    · rintro low first high second text third torn
      obtain ⟨up, behind, front⟩ := torn.circle
      obtain ⟨c, member, greatest⟩ :=
        settled.among distinct [low, high, text] (by simp) first
      obtain rfl | rfl | rfl : c = low ∨ c = high ∨ c = text := by simpa using member
      · exact Version.before_asymm up
          (greatest high (by simp) second (Version.ne_of_before up).symm)
      · exact Version.before_asymm behind
          (greatest text (by simp) third (Version.ne_of_before behind).symm)
      · exact Version.before_asymm front
          (greatest low (by simp) first (Version.ne_of_before front).symm)
  · intro orderly part taken any
    have fewer : ofCode code part ⊆ ofCode code flows := (taken.filter _).subset
    have linear := orderly.linear.subset (List.map_subset Flow.version fewer)
    obtain ⟨f, member, greatest⟩ := exists_greatest linear (fun f first g second version =>
      distinct.eq (mem_ofCode.mp (fewer first)).1 (mem_ofCode.mp (fewer second)).1
        ((mem_ofCode.mp first).2.trans (mem_ofCode.mp second).2.symm) version) any
    exact ⟨f, (settled_iff (distinct.sublist taken)).mpr ⟨member, greatest⟩⟩

/-! ## The list of all flows -/

/-- The first flow stands before the second in the list of all flows. -/
def Precedes (f g : Flow) : Prop :=
  f.code < g.code ∨ f.code = g.code ∧ Version.before f.version g.version = true

theorem precedes_asymm (first : Precedes f g) : ¬ Precedes g f := by
  rintro (back | ⟨same, back⟩)
  · rcases first with less | ⟨same, -⟩
    · exact String.lt_asymm less back
    · exact String.lt_irrefl _ (same ▸ back)
  · rcases first with less | ⟨-, before⟩
    · exact String.lt_irrefl _ (same ▸ less)
    · exact Version.before_asymm before back

theorem codes_sorted (flows : List Flow) : (ofFlows flows).codes.Sorted := by
  induction flows using List.reverseRecOn with
  | nil => exact .nil
  | append_singleton flows f ih =>
    rw [ofFlows_concat]
    exact Keyed.sorted_insert ih

theorem stored_of_mem {versions : Keyed Flow} (member : (code, versions) ∈ (ofFlows flows).codes) :
    (ofFlows flows).stored code = versions.map Prod.snd := by
  have found := Keyed.get?_of_mem (codes_sorted flows) member
  simp [stored, Catalog.versions, found]

theorem mem_flows (distinct : Distinct flows) : f ∈ (ofFlows flows).flows ↔ f ∈ flows := by
  constructor
  · intro listed
    obtain ⟨⟨code, versions⟩, entry, member⟩ := List.mem_flatMap.mp listed
    have kept : f ∈ (ofFlows flows).stored code :=
      stored_of_mem entry ▸ (Sort.mem_sort ..).mp member
    exact (mem_ofCode.mp ((stored_perm distinct code).mem_iff.mp kept)).1
  · intro member
    have kept := (stored_perm distinct f.code).mem_iff.mpr (mem_ofCode.mpr ⟨member, rfl⟩)
    cases found : Keyed.get? f.code (ofFlows flows).codes with
    | none => simp [stored, versions, found] at kept
    | some versions =>
      have entry := Keyed.mem_of_get? found
      rw [stored_of_mem entry] at kept
      exact List.mem_flatMap.mpr ⟨_, entry, (Sort.mem_sort ..).mpr kept⟩

/-- The versions of a code are sorted if they are in order. -/
theorem byVersion_ordered {order : List Flow} (distinct : Distinct flows)
    (orderly : Version.Orderly (spellings code flows)) (kept : order.Perm (ofCode code flows)) :
    (byVersion order).Pairwise fun f g => Version.before f.version g.version = true := by
  have inside {f : Flow} (member : f ∈ order) : f ∈ flows ∧ f.code = code :=
    mem_ofCode.mp (kept.mem_iff.mp member)
  have version {f : Flow} (member : f ∈ order) : f.version ∈ spellings code flows :=
    List.mem_map_of_mem (kept.mem_iff.mp member)
  refine Sort.ordered_sort ?_ fun f first g second h third =>
    orderly.linear.trans _ (version first) _ (version second) _ (version third)
  refine List.Pairwise.imp_of_mem (fun first second other => ?_)
    (kept.nodup_iff.mpr (distinct.nodup.filter _))
  refine orderly.linear.total _ (version first) _ (version second) fun same => other ?_
  exact distinct.eq (inside first).1 (inside second).1
    ((inside first).2.trans (inside second).2.symm) same

theorem flows_pairwise (distinct : Distinct flows)
    (orderly : ∀ code, Version.Orderly (spellings code flows)) :
    (ofFlows flows).flows.Pairwise Precedes := by
  have group {code : String} {versions : Keyed Flow} (entry : (code, versions) ∈ (ofFlows flows).codes) :
      (versions.map Prod.snd).Perm (ofCode code flows) :=
    stored_of_mem entry ▸ stored_perm distinct code
  have code {code : String} {versions : Keyed Flow} (entry : (code, versions) ∈ (ofFlows flows).codes)
      {f : Flow} (listed : f ∈ byVersion (versions.map Prod.snd)) : f.code = code :=
    (mem_ofCode.mp ((group entry).mem_iff.mp ((Sort.mem_sort ..).mp listed))).2
  refine List.pairwise_flatMap.mpr ⟨?_, ?_⟩
  · rintro ⟨c, versions⟩ entry
    refine (byVersion_ordered distinct (orderly c) (group entry)).imp_of_mem
      fun first second before => .inr ⟨?_, before⟩
    exact (code entry first).trans (code entry second).symm
  · refine (codes_sorted flows).imp_of_mem fun {a b} front back less f first g second => .inl ?_
    exact (code front first) ▸ (code back second) ▸ less

/-- Where all versions are in order, the list of all flows is the only one in which each flow stands
behind those that precede it. -/
theorem flows_eq_iff {listing : List Flow} (distinct : Distinct flows)
    (orderly : ∀ code, Version.Orderly (spellings code flows)) :
    (ofFlows flows).flows = listing ↔ listing.Perm flows ∧ listing.Pairwise Precedes := by
  have sorted := flows_pairwise distinct orderly
  have once {order : List Flow} (ordered : order.Pairwise Precedes) : order.Nodup := by
    refine ordered.imp ?_
    rintro f g before rfl
    exact precedes_asymm before before
  have all : (ofFlows flows).flows.Perm flows :=
    (List.perm_ext_iff_of_nodup (once sorted) distinct.nodup).mpr fun _ => mem_flows distinct
  constructor
  · rintro rfl
    exact ⟨all, sorted⟩
  · rintro ⟨perm, ordered⟩
    exact List.Perm.eq_of_pairwise (fun _ _ _ _ first second => (precedes_asymm first second).elim)
      sorted ordered (all.trans perm.symm)

/-! ## Whatever the order -/

/-- What is found and listed of flows, whatever order they are put in and gone through in. -/
structure Determined (flows : List Flow) : Prop where
  latest : ∀ code f, Settled flows code f ↔ Greatest flows code f
  choices : ∀ code, AllSettled flows code ↔ Version.Orderly (spellings code flows)
  listed : (∀ code, Version.Orderly (spellings code flows)) →
    ∀ inserted : List Flow, inserted.Perm flows → ∀ listing,
      (ofFlows inserted).flows = listing ↔ listing.Perm flows ∧ listing.Pairwise Precedes

theorem spellings_subset {inserted : List Flow} (order : inserted.Perm flows) :
    spellings code inserted ⊆ spellings code flows :=
  List.map_subset _ (order.filter _).subset

theorem determined (distinct : Distinct flows) : Determined flows where
  latest _ _ := settled_iff distinct
  choices _ := orderly_iff distinct
  listed orderly inserted order listing := by
    rw [flows_eq_iff (distinct.perm order) fun code => (orderly code).subset (spellings_subset order)]
    exact and_congr_left fun _ => ⟨fun perm => perm.trans order, fun perm => perm.trans order.symm⟩

namespace Editions

def survey (version : String) : Flow where
  code := "survey"
  version := version
  nodes := []

/-- Three versions in a circle. -/
def three : List Flow := [survey "2", survey "10", survey "1a"]

end Editions

open Editions in
/-- None of the three is the latest one whatever the order, and each two of them have a latest one. -/
theorem editions_unsettled :
    Distinct three ∧ (∀ f, ¬ Settled three "survey" f) ∧
      Settled [survey "2", survey "10"] "survey" (survey "10") ∧
      Settled [survey "10", survey "1a"] "survey" (survey "1a") ∧
      Settled [survey "1a", survey "2"] "survey" (survey "2") := by
  have once : Distinct three := by unfold Distinct; decide +kernel
  have pair {a b : String} (other : a ≠ b) (before : Version.before a b = true) :
      Settled [survey a, survey b] "survey" (survey b) := by
    have two : Distinct [survey a, survey b] := by simp [Distinct, survey, other]
    refine ((determined two).latest "survey" _).mpr ⟨by simp [survey], fun g member different => ?_⟩
    obtain rfl | rfl : g = survey a ∨ g = survey b := by simpa using (mem_ofCode.mp member).1
    · exact before
    · exact absurd rfl different
  refine ⟨once, fun f settled => ?_, pair (by decide) (by decide +kernel),
    pair (by decide) (by decide +kernel), pair (by decide) (by decide +kernel)⟩
  obtain ⟨member, greatest⟩ := ((determined once).latest "survey" f).mp settled
  have behind (version : String) (held : survey version ∈ three) (other : version ≠ f.version) :
      Version.before version f.version = true :=
    greatest (survey version) (mem_ofCode.mpr ⟨held, rfl⟩) fun same =>
      other (congrArg Flow.version same)
  obtain rfl | rfl | rfl : f = survey "2" ∨ f = survey "10" ∨ f = survey "1a" := by
    simpa [three] using (mem_ofCode.mp member).1
  · exact absurd (behind "10" (by simp [three]) (by decide)) (by decide +kernel)
  · exact absurd (behind "1a" (by simp [three]) (by decide)) (by decide +kernel)
  · exact absurd (behind "2" (by simp [three]) (by decide)) (by decide +kernel)

end Parley.Catalog
