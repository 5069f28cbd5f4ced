import Parley.Registry
import Parley.Proofs.Text.Natural
import Mathlib.Data.List.Induction
/-!
# Newest older versions

A registry keeps the last registration of each type and version (`Registry.mem_registrations`). What is
asked for and not registered is served by the registration of the greatest smaller number of the type,
and which one that is does not depend on the order in which the registrations are gone through
(`Registry.serves_newest_older`).
-/
namespace Parley.Registry
open Parley.Text
variable {ρ : Type} {fallback : Bool} {rs : List (Registration ρ)} {r s : Registration ρ}
  {type version : String} {limit n : Nat}

/-! ## What is registered -/

/-- The registry after some registrations, one after the other. -/
def ofRegistrations (fallback : Bool) (rs : List (Registration ρ)) : Registry ρ :=
  rs.foldl register { fallback }

/-- The registration is one of the type and the version. -/
def Serves (type version : String) (r : Registration ρ) : Prop :=
  r.type = type ∧ r.version = version

/-- The last one of the registrations of a type and a version. -/
def Last (rs : List (Registration ρ)) (type version : String) (r : Registration ρ) : Prop :=
  ∃ front back, rs = front ++ r :: back ∧ Serves type version r ∧
    ∀ s ∈ back, ¬ Serves type version s

theorem isFor_iff : isFor type version r = true ↔ Serves type version r := by
  simp [isFor, Serves]

theorem Last.mem (last : Last rs type version r) : r ∈ rs := by
  obtain ⟨front, back, rfl, -⟩ := last
  simp

theorem Last.serves (last : Last rs type version r) : Serves type version r := by
  obtain ⟨_, _, -, serves, -⟩ := last
  exact serves

theorem last_concat :
    Last (rs ++ [s]) type version r ↔
      Serves type version s ∧ r = s ∨ ¬ Serves type version s ∧ Last rs type version r := by
  constructor
  · rintro ⟨front, back, whole, serves, later⟩
    rcases List.eq_nil_or_concat back with rfl | ⟨middle, t, rfl⟩
    · obtain ⟨-, same⟩ := List.append_inj' whole rfl
      obtain rfl := List.singleton_inj.mp same
      exact .inl ⟨serves, rfl⟩
    · rw [List.concat_eq_append] at whole later
      rw [← List.cons_append, ← List.append_assoc] at whole
      obtain ⟨rfl, same⟩ := List.append_inj' whole rfl
      obtain rfl := List.singleton_inj.mp same
      exact .inr ⟨later s (by simp), front, middle, rfl, serves,
        fun t member => later t (List.mem_append_left _ member)⟩
  · rintro (⟨serves, rfl⟩ | ⟨other, front, back, rfl, serves, later⟩)
    · exact ⟨rs, [], rfl, serves, by simp⟩
    · refine ⟨front, back ++ [s], by simp, serves, fun t member => ?_⟩
      rcases List.mem_append.mp member with early | new
      · exact later t early
      · exact List.mem_singleton.mp new ▸ other

theorem Last.unique (one : Last rs type version r) (other : Last rs type version s) : r = s := by
  induction rs using List.reverseRecOn with
  | nil => exact absurd one.mem List.not_mem_nil
  | append_singleton rs t ih =>
    rcases last_concat.mp one with ⟨serves, rfl⟩ | ⟨not, early⟩
    · rcases last_concat.mp other with ⟨-, rfl⟩ | ⟨not, -⟩
      · rfl
      · exact absurd serves not
    · rcases last_concat.mp other with ⟨serves, -⟩ | ⟨-, early'⟩
      · exact absurd serves not
      · exact ih early early'

theorem exists_last (member : r ∈ rs) (serves : Serves type version r) :
    ∃ s, Last rs type version s := by
  induction rs using List.reverseRecOn with
  | nil => exact absurd member List.not_mem_nil
  | append_singleton rs t ih =>
    by_cases new : Serves type version t
    · exact ⟨t, last_concat.mpr (.inl ⟨new, rfl⟩)⟩
    · have early : r ∈ rs := by
        rcases List.mem_append.mp member with early | here
        · exact early
        · exact absurd (List.mem_singleton.mp here ▸ serves) new
      obtain ⟨s, last⟩ := ih early
      exact ⟨s, last_concat.mpr (.inr ⟨new, last⟩)⟩

@[simp] theorem ofRegistrations_fallback :
    (ofRegistrations fallback rs).fallback = fallback := by
  induction rs using List.reverseRecOn with
  | nil => rfl
  | append_singleton rs r ih => simpa [ofRegistrations, register] using ih

/-- Of each type and version the last registration is kept, and nothing else. -/
theorem mem_registrations :
    r ∈ (ofRegistrations fallback rs).registrations ↔ Last rs r.type r.version r := by
  induction rs using List.reverseRecOn with
  | nil =>
    constructor
    · exact fun member => absurd member List.not_mem_nil
    · exact fun last => absurd last.mem List.not_mem_nil
  | append_singleton rs s ih =>
    have kept : r ∈ (ofRegistrations fallback (rs ++ [s])).registrations ↔
        (r ∈ (ofRegistrations fallback rs).registrations ∧ ¬ Serves s.type s.version r) ∨ r = s := by
      simp [ofRegistrations, register, ← isFor_iff]
    have mirrored : Serves s.type s.version r ↔ Serves r.type r.version s := by
      simp [Serves, eq_comm]
    rw [kept, ih, last_concat, mirrored]
    constructor
    · rintro (⟨last, other⟩ | rfl)
      · exact .inr ⟨other, last⟩
      · exact .inl ⟨⟨rfl, rfl⟩, rfl⟩
    · rintro (⟨-, same⟩ | ⟨other, last⟩)
      · exact .inr same
      · exact .inl ⟨last, other⟩

theorem find?_registrations :
    (ofRegistrations fallback rs).registrations.find? (isFor type version) = some r ↔
      Last rs type version r := by
  have kept {s : Registration ρ}
      (found : (ofRegistrations fallback rs).registrations.find? (isFor type version) = some s) :
      Last rs type version s := by
    obtain ⟨rfl, rfl⟩ := isFor_iff.mp (List.find?_some found)
    exact mem_registrations.mp (List.mem_of_find?_eq_some found)
  refine ⟨kept, fun last => ?_⟩
  cases found : (ofRegistrations fallback rs).registrations.find? (isFor type version) with
  | some s => rw [(kept found).unique last]
  | none =>
    have serves := last.serves
    obtain ⟨rfl, rfl⟩ := serves
    exact absurd (isFor_iff.mpr ⟨rfl, rfl⟩) (List.find?_eq_none.mp found r (mem_registrations.mpr last))

/-! ## Numbered versions -/

/-- The version is `v` and the text of a number of 32 bits. -/
def Numbered (version : String) (n : Nat) : Prop :=
  ∃ digits, version.toList = 'v' :: digits ∧ SpellsNatural digits n ∧ n ≤ greatest32

theorem versionNumber?_iff : versionNumber? version = some n ↔ Numbered version n := by
  unfold versionNumber?
  split
  · next digits spelled => simp [Numbered, spelled, readNatural_iff]
  · next other =>
    constructor
    · exact fun none => absurd none (by simp)
    · rintro ⟨digits, spelled, -⟩
      exact absurd spelled (other digits)

/-- Of one type no two versions have the same number. -/
def Distinguished (rs : List (Registration ρ)) : Prop :=
  ∀ r ∈ rs, ∀ s ∈ rs, r.type = s.type → ∀ n, Numbered r.version n → Numbered s.version n →
    r.version = s.version

/-- The last registration of the greatest number of a type that is smaller than a number. -/
structure NewestOlder (rs : List (Registration ρ)) (type : String) (limit : Nat)
    (r : Registration ρ) : Prop where
  last : Last rs type r.version r
  older : ∃ n, Numbered r.version n ∧ n < limit ∧
    ∀ s ∈ rs, s.type = type → ∀ m, Numbered s.version m → m < limit → m ≤ n

/-- All numbers of a type are at least as great as a number. -/
def NoneOlder (rs : List (Registration ρ)) (type : String) (limit : Nat) : Prop :=
  ∀ s ∈ rs, s.type = type → ∀ m, Numbered s.version m → limit ≤ m

theorem mem_older {registry : Registry ρ} {c : Nat × Registration ρ} :
    c ∈ registry.older type limit ↔
      c.2 ∈ registry.registrations ∧ c.2.type = type ∧ Numbered c.2.version c.1 ∧ c.1 < limit := by
  obtain ⟨n, r⟩ := c
  simp only [older, List.mem_filterMap, ← versionNumber?_iff]
  constructor
  · rintro ⟨s, member, taken⟩
    split at taken
    · next same =>
      split at taken
      · next m numbered =>
        split at taken
        · next less =>
          obtain ⟨rfl, rfl⟩ := Prod.mk.inj (Option.some.inj taken)
          exact ⟨member, beq_iff_eq.mp same, numbered, less⟩
        · contradiction
      · contradiction
    · contradiction
  · rintro ⟨member, same, numbered, less⟩
    exact ⟨r, member, by simp [same, numbered, less]⟩

/-! ## The greatest number -/

theorem newest_eq_none {candidates : List (Nat × Registration ρ)} :
    newest candidates = none ↔ candidates = [] := by
  cases candidates <;> simp [newest]

private theorem foldl_greatest (first : Nat × Registration ρ) (rest : List (Nat × Registration ρ)) :
    let best := rest.foldl (fun best c => if c.1 < best.1 then best else c) first
    best ∈ first :: rest ∧ ∀ c ∈ first :: rest, c.1 ≤ best.1 := by
  induction rest generalizing first with
  | nil => simp
  | cons c rest ih =>
    rw [List.foldl_cons]
    split
    · next less =>
      obtain ⟨member, greatest⟩ := ih first
      obtain ⟨front, back⟩ := List.forall_mem_cons.mp greatest
      refine ⟨?_, List.forall_mem_cons.mpr ⟨front, List.forall_mem_cons.mpr ⟨by omega, back⟩⟩⟩
      exact (List.mem_cons.mp member).elim (fun same => by simp [same])
        fun late => List.mem_cons_of_mem _ (List.mem_cons_of_mem _ late)
    · next least =>
      obtain ⟨member, greatest⟩ := ih c
      obtain ⟨front, back⟩ := List.forall_mem_cons.mp greatest
      exact ⟨List.mem_cons_of_mem _ member, List.forall_mem_cons.mpr ⟨by omega, greatest⟩⟩

theorem newest_greatest {candidates : List (Nat × Registration ρ)} {c : Nat × Registration ρ}
    (found : newest candidates = some c) : c ∈ candidates ∧ ∀ d ∈ candidates, d.1 ≤ c.1 := by
  cases candidates with
  | nil => simp [newest] at found
  | cons first rest =>
    obtain rfl := Option.some.inj found
    exact foldl_greatest first rest

/-- When each number stands for one candidate, the newest one is that of the greatest number. -/
theorem newest_iff {candidates : List (Nat × Registration ρ)} {c : Nat × Registration ρ}
    (told : ∀ c ∈ candidates, ∀ d ∈ candidates, c.1 = d.1 → c = d) :
    newest candidates = some c ↔ c ∈ candidates ∧ ∀ d ∈ candidates, d.1 ≤ c.1 := by
  refine ⟨newest_greatest, fun ⟨member, greatest⟩ => ?_⟩
  cases found : newest candidates with
  | none => exact absurd member (newest_eq_none.mp found ▸ List.not_mem_nil)
  | some d =>
    obtain ⟨member', greatest'⟩ := newest_greatest found
    rw [told d member' c member (Nat.le_antisymm (greatest d member') (greatest' c member))]

/-! ## What serves a version -/

theorem lookup_last (last : Last rs type version r) :
    (ofRegistrations fallback rs).lookup type version = some r := by
  rw [lookup, find?_registrations.mpr last]

theorem find?_missing (missing : ∀ r ∈ rs, ¬ Serves type version r) :
    (ofRegistrations fallback rs).registrations.find? (isFor type version) = none := by
  rw [Option.eq_none_iff_forall_ne_some]
  intro r found
  have last := find?_registrations.mp found
  exact missing r last.mem last.serves

/-- With fallback a number that is not registered is served by the newest of the older registrations. -/
theorem lookup_older (missing : ∀ r ∈ rs, ¬ Serves type version r) (numbered : Numbered version n) :
    (ofRegistrations true rs).lookup type version =
      (newest ((ofRegistrations true rs).older type n)).map Prod.snd := by
  simp [lookup, find?_missing missing, versionNumber?_iff.mpr numbered]

theorem lookup_strict (missing : ∀ r ∈ rs, ¬ Serves type version r) :
    (ofRegistrations false rs).lookup type version = none := by
  simp [lookup, find?_missing missing]

theorem lookup_unnumbered (missing : ∀ r ∈ rs, ¬ Serves type version r)
    (unnumbered : ∀ n, ¬ Numbered version n) :
    (ofRegistrations fallback rs).lookup type version = none := by
  have none : versionNumber? version = none :=
    Option.eq_none_iff_forall_ne_some.mpr fun n read => unnumbered n (versionNumber?_iff.mp read)
  simp [lookup, find?_missing missing, none]

/-- Each number below a limit stands for one registration that is kept. -/
theorem older_told (distinct : Distinguished rs) (fallback : Bool) (type : String) (limit : Nat) :
    ∀ c ∈ (ofRegistrations fallback rs).older type limit,
      ∀ d ∈ (ofRegistrations fallback rs).older type limit, c.1 = d.1 → c = d := by
  intro c member d member' number
  obtain ⟨kept, same, numbered, -⟩ := mem_older.mp member
  obtain ⟨kept', same', numbered', -⟩ := mem_older.mp member'
  have last := mem_registrations.mp kept
  have last' := mem_registrations.mp kept'
  have type : c.2.type = d.2.type := same.trans same'.symm
  have version := distinct c.2 last.mem d.2 last'.mem type c.1 numbered (number ▸ numbered')
  exact Prod.ext number (last.unique (type ▸ version ▸ last'))

theorem mem_older_ofRegistrations {c : Nat × Registration ρ} :
    c ∈ (ofRegistrations fallback rs).older type limit ↔
      Last rs type c.2.version c.2 ∧ Numbered c.2.version c.1 ∧ c.1 < limit := by
  rw [mem_older, mem_registrations]
  constructor
  · rintro ⟨last, rfl, numbered, less⟩
    exact ⟨last, numbered, less⟩
  · rintro ⟨last, numbered, less⟩
    obtain ⟨rfl, -⟩ := last.serves
    exact ⟨last, rfl, numbered, less⟩

/-- A version of a type with a number below a limit is still kept. -/
theorem exists_older (fallback : Bool) (member : s ∈ rs) (numbered : Numbered s.version n)
    (less : n < limit) : ∃ t, (n, t) ∈ (ofRegistrations fallback rs).older s.type limit := by
  obtain ⟨t, last⟩ := exists_last member ⟨rfl, rfl⟩
  obtain ⟨-, same⟩ := last.serves
  exact ⟨t, mem_older_ofRegistrations.mpr ⟨same.symm ▸ last, same.symm ▸ numbered, less⟩⟩

theorem newest_older_iff (distinct : Distinguished rs) :
    (newest ((ofRegistrations fallback rs).older type limit)).map Prod.snd = some r ↔
      NewestOlder rs type limit r := by
  simp only [Option.map_eq_some_iff, newest_iff (older_told distinct fallback type limit),
    mem_older_ofRegistrations]
  constructor
  · rintro ⟨⟨n, r⟩, ⟨⟨last, numbered, less⟩, greatest⟩, rfl⟩
    refine ⟨last, n, numbered, less, fun s member same m numbered' less' => ?_⟩
    obtain ⟨t, kept⟩ := exists_older fallback member numbered' less'
    exact greatest (m, t) (mem_older_ofRegistrations.mp (same ▸ kept))
  · rintro ⟨last, n, numbered, less, greatest⟩
    refine ⟨(n, r), ⟨⟨last, numbered, less⟩, fun d ⟨kept, numbered', less'⟩ => ?_⟩, rfl⟩
    exact greatest d.2 kept.mem kept.serves.1 d.1 numbered' less'

theorem newest_older_eq_none :
    (newest ((ofRegistrations fallback rs).older type limit)).map Prod.snd = none ↔
      NoneOlder rs type limit := by
  rw [Option.map_eq_none_iff, newest_eq_none]
  constructor
  · intro empty s member same m numbered
    refine Nat.le_of_not_lt fun less => ?_
    obtain ⟨t, kept⟩ := exists_older fallback member numbered less
    rw [same, empty] at kept
    contradiction
  · intro none
    refine List.eq_nil_iff_forall_not_mem.mpr fun c member => ?_
    obtain ⟨last, numbered, less⟩ := mem_older_ofRegistrations.mp member
    exact absurd (none c.2 last.mem last.serves.1 c.1 numbered) (Nat.not_le_of_lt less)

/-- No registration is one of the type and the version. -/
def Missing (rs : List (Registration ρ)) (type version : String) : Prop :=
  ∀ r ∈ rs, ¬ Serves type version r

/-- What serves a type and a version. -/
structure PicksNewest (fallback : Bool) (rs : List (Registration ρ)) (type version : String) :
    Prop where
  /-- What is registered is served by its last registration. -/
  exact : ∀ r, Last rs type version r →
    (ofRegistrations fallback rs).lookup type version = some r
  /-- What is not registered is served by fallback only, -/
  strict : fallback = false → Missing rs type version →
    (ofRegistrations fallback rs).lookup type version = none
  /-- for a version that has a number, -/
  unnumbered : Missing rs type version → (∀ n, ¬ Numbered version n) →
    (ofRegistrations fallback rs).lookup type version = none
  /-- from the last registration of the greatest smaller number of the type, -/
  newest : fallback = true → Missing rs type version → ∀ n, Numbered version n → ∀ r,
    (ofRegistrations fallback rs).lookup type version = some r ↔ NewestOlder rs type n r
  /-- unless there is no smaller number. -/
  none_iff : fallback = true → Missing rs type version → ∀ n, Numbered version n →
    ((ofRegistrations fallback rs).lookup type version = none ↔ NoneOlder rs type n)
  /-- The order in which the older registrations are gone through does not matter. -/
  unordered : ∀ n order, order.Perm ((ofRegistrations fallback rs).older type n) →
    Registry.newest order = Registry.newest ((ofRegistrations fallback rs).older type n)
  /-- The runner and what is said about the node type are those of one registration. -/
  agrees : (∃ r, (ofRegistrations fallback rs).lookup type version = some r ∧
      (ofRegistrations fallback rs).resolve type version = .ok r ∧
      (ofRegistrations fallback rs).info? type version = some r.info) ∨
    (ofRegistrations fallback rs).lookup type version = none ∧
      (ofRegistrations fallback rs).resolve type version = .error (.unknownNodeType type version) ∧
      (ofRegistrations fallback rs).info? type version = none
  /-- A greater number is not served by a smaller one, and with fallback it is served. -/
  rises : ∀ later n m r, Numbered version n → Numbered later m → n < m →
    (ofRegistrations fallback rs).lookup type version = some r →
    (∀ s, (ofRegistrations fallback rs).lookup type later = some s →
      ∃ k l, Numbered r.version k ∧ Numbered s.version l ∧ k ≤ l) ∧
    (fallback = true → ∃ s, (ofRegistrations fallback rs).lookup type later = some s)

/-- What serves a version with a number is a version of the type with at most this number. -/
theorem served_number (distinct : Distinguished rs) (numbered : Numbered version n)
    (served : (ofRegistrations fallback rs).lookup type version = some r) :
    r ∈ rs ∧ r.type = type ∧ ∃ k, Numbered r.version k ∧ k ≤ n := by
  by_cases registered : ∃ r ∈ rs, Serves type version r
  · obtain ⟨s, member, serves⟩ := registered
    obtain ⟨t, last⟩ := exists_last member serves
    obtain rfl := Option.some.inj ((lookup_last last).symm.trans served)
    obtain ⟨same, rfl⟩ := last.serves
    exact ⟨last.mem, same, n, numbered, Nat.le_refl n⟩
  have missing : Missing rs type version := fun r member serves => registered ⟨r, member, serves⟩
  cases fallback with
  | false =>
    rw [lookup_strict missing] at served
    contradiction
  | true =>
    rw [lookup_older missing numbered] at served
    obtain ⟨last, k, numbered', less, -⟩ := (newest_older_iff distinct).mp served
    exact ⟨last.mem, last.serves.1, k, numbered', Nat.le_of_lt less⟩

/-- With a version of a number below its own, a version is served by fallback, and by no number that is
smaller. -/
theorem served_beyond (distinct : Distinguished rs) (fallback : Bool) {later : String} {k m : Nat}
    (member : r ∈ rs) (same : r.type = type) (numbered : Numbered r.version k)
    (numbered' : Numbered later m) (less : k < m) :
    (∀ s, (ofRegistrations fallback rs).lookup type later = some s →
      ∃ l, Numbered s.version l ∧ k ≤ l) ∧
    (fallback = true → ∃ s, (ofRegistrations fallback rs).lookup type later = some s) := by
  by_cases registered : ∃ r ∈ rs, Serves type later r
  · obtain ⟨t, member', serves⟩ := registered
    obtain ⟨s, last⟩ := exists_last member' serves
    refine ⟨fun s' served => ?_, fun _ => ⟨s, lookup_last last⟩⟩
    obtain rfl := Option.some.inj ((lookup_last last).symm.trans served)
    obtain ⟨-, rfl⟩ := last.serves
    exact ⟨m, numbered', Nat.le_of_lt less⟩
  have missing : Missing rs type later := fun r member serves => registered ⟨r, member, serves⟩
  cases fallback with
  | false => exact ⟨by simp [lookup_strict missing], by simp⟩
  | true =>
    rw [lookup_older missing numbered']
    refine ⟨fun s served => ?_, fun _ => Option.ne_none_iff_exists'.mp fun none => ?_⟩
    · obtain ⟨-, l, numbered'', -, greatest⟩ := (newest_older_iff distinct).mp served
      exact ⟨l, numbered'', greatest r member same k numbered less⟩
    · exact absurd (newest_older_eq_none.mp none r member same k numbered) (Nat.not_le_of_lt less)

theorem newest_perm (distinct : Distinguished rs) {order : List (Nat × Registration ρ)}
    (perm : order.Perm ((ofRegistrations fallback rs).older type limit)) :
    newest order = newest ((ofRegistrations fallback rs).older type limit) := by
  have told := older_told distinct fallback type limit
  refine Option.ext fun c => ?_
  rw [newest_iff told, newest_iff fun c member d member' =>
    told c (perm.mem_iff.mp member) d (perm.mem_iff.mp member')]
  simp only [perm.mem_iff]

/-- The newest older version serves what is not registered. -/
theorem serves_newest_older (distinct : Distinguished rs) (fallback : Bool) (type version : String) :
    PicksNewest fallback rs type version where
  exact _ := lookup_last
  strict := by
    rintro rfl missing
    exact lookup_strict missing
  unnumbered := lookup_unnumbered
  newest := by
    rintro rfl missing n numbered r
    rw [lookup_older missing numbered]
    exact newest_older_iff distinct
  none_iff := by
    rintro rfl missing n numbered
    rw [lookup_older missing numbered]
    exact newest_older_eq_none
  unordered _ _ := newest_perm distinct
  agrees := by
    cases found : (ofRegistrations fallback rs).lookup type version <;> simp [resolve, info?, found]
  rises := by
    intro later n m r numbered numbered' less served
    obtain ⟨member, same, k, smaller, least⟩ := served_number distinct numbered served
    obtain ⟨greater, found⟩ := served_beyond distinct fallback member same smaller numbered'
      (Nat.lt_of_le_of_lt least less)
    refine ⟨fun s served' => ?_, found⟩
    obtain ⟨l, numbered'', most⟩ := greater s served'
    exact ⟨k, l, smaller, numbered'', most⟩

theorem distinguished_iff : Distinguished rs ↔ ∀ r ∈ rs, ∀ s ∈ rs, r.type = s.type →
    versionNumber? r.version ≠ none → versionNumber? r.version = versionNumber? s.version →
      r.version = s.version := by
  constructor
  · intro distinct r member s member' type some same
    obtain ⟨n, numbered⟩ := Option.ne_none_iff_exists'.mp some
    exact distinct r member s member' type n (versionNumber?_iff.mp numbered)
      (versionNumber?_iff.mp (same ▸ numbered))
  · intro told r member s member' type n numbered numbered'
    have read := versionNumber?_iff.mpr numbered
    have read' := versionNumber?_iff.mpr numbered'
    exact told r member s member' type (by simp [read]) (read.trans read'.symm)

/-! ### A type with some versions -/

namespace Editions

def edition (type version description : String) : Registration Unit :=
  { type, version, info := { description }, runner := () }

/-- The second version is registered twice, and another one has no number. -/
def all : List (Registration Unit) :=
  [edition "x" "v0" "zero", edition "x" "v2" "two", edition "x" "v5" "five",
    edition "x" "latest" "last", edition "y" "v3" "other", edition "x" "v2" "two again"]

end Editions

open Editions in
/-- A version that is another spelling of a registered number is served by the number before it. -/
theorem editions_served :
    Distinguished all ∧ ∃ r, (ofRegistrations true all).lookup "x" "v05" = some r ∧
      r.info.description = "two again" ∧ NewestOlder all "x" 5 r ∧
      ∃ s, (ofRegistrations true all).lookup "x" "v+9" = some s ∧
        (∃ k l, Numbered r.version k ∧ Numbered s.version l ∧ k ≤ l) ∧
        (ofRegistrations true all).resolve "x" "v+9" = .ok s := by
  have distinct : Distinguished all := distinguished_iff.mpr (by decide +kernel)
  have five : Numbered "v05" 5 := versionNumber?_iff.mp (by decide +kernel)
  have nine : Numbered "v+9" 9 := versionNumber?_iff.mp (by decide +kernel)
  have missing : Missing all "x" "v05" := by
    unfold Missing Serves
    decide +kernel
  have told : ((ofRegistrations true all).lookup "x" "v05").map (fun r => r.info.description) =
      some "two again" := by decide +kernel
  obtain ⟨r, found, description⟩ := Option.map_eq_some_iff.mp told
  have picks := serves_newest_older distinct true "x" "v05"
  obtain ⟨greater, served⟩ := picks.rises "v+9" 5 9 r five nine (by decide) found
  obtain ⟨s, found'⟩ := served rfl
  refine ⟨distinct, r, found, description, (picks.newest rfl missing 5 five r).mp found, s, found',
    greater s found', ?_⟩
  rcases (serves_newest_older distinct true "x" "v+9").agrees with ⟨t, same, resolved, -⟩ | ⟨none, -⟩
  · rw [resolved, Option.some.inj (found'.symm.trans same)]
  · exact absurd (found'.symm.trans none) (by simp)

end Parley.Registry
