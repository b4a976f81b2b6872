import Mathlib.Data.Finset.Card
import Mathlib.Data.List.Dedup
import Mathlib.Data.List.Sort
import Mathlib.Data.String.Basic
import CcdController.PinLabels
import CcdController.Proofs.Keyed
import CcdController.Proofs.Traversal

/-!
Names of pins, from pairs of a name and an address of which the last pair of a name decides. `Gives` is
the map that the pairs stand for, said without any look-up. The labels that are built are this map in
both directions, and where there are none the fault tells the first address that is no pin, or else
all names that share a pin.
-/
namespace CcdController.PinLabels

theorem nodup_of_increasing {entries : List (String × Nat)}
    (increasing : entries.Pairwise fun one other => one.2 < other.2) :
    (entries.map Prod.snd).Nodup := by
  apply List.Pairwise.map Prod.snd _ increasing
  intro one other less
  exact Nat.ne_of_lt less

section

variable {labels : PinLabels} {name : String} {pin : Nat}

theorem mem_entries_iff : (name, pin) ∈ labels.entries ↔ labels.addressOf name = .ok pin := by
  have found : labels.entries.find? (fun entry => entry.1 = name) = some (name, pin) ↔
      (name, pin) ∈ labels.entries ∧ name = name := Keyed.find?_eq_some_iff labels.names_nodup
  rw [and_iff_left rfl] at found
  rw [← found, addressOf]
  cases first : labels.entries.find? fun entry => entry.1 = name with
  | none => simp
  | some entry =>
      have named : entry.1 = name := by simpa using List.find?_some first
      simp [Prod.ext_iff, named]

theorem mem_entries_iff_nameOf : (name, pin) ∈ labels.entries ↔ labels.nameOf pin = .ok name := by
  have found : labels.entries.find? (fun entry => entry.2 = pin) = some (name, pin) ↔
      (name, pin) ∈ labels.entries ∧ pin = pin :=
    Keyed.find?_eq_some_iff (nodup_of_increasing labels.increasing)
  rw [and_iff_left rfl] at found
  rw [← found, nameOf]
  cases first : labels.entries.find? fun entry => entry.2 = pin with
  | none => simp
  | some entry =>
      have placed : entry.2 = pin := by simpa using List.find?_some first
      simp [Prod.ext_iff, placed]

end

/-- The last pair of a name gives it an address. -/
def Gives (pairs : List (String × Nat)) (name : String) (address : Nat) : Prop :=
  ∃ earlier later, pairs = earlier ++ (name, address) :: later ∧ name ∉ later.map Prod.fst

def Shared (pairs : List (String × Nat)) (address : Nat) : Prop :=
  ∃ one other, one ≠ other ∧ Gives pairs one address ∧ Gives pairs other address

structure ListsShared (pairs : List (String × Nat)) (groups : List (Nat × List String)) : Prop where
  increasing : groups.Pairwise fun one other => one.1 < other.1
  shared_iff : ∀ address, address ∈ groups.map Prod.fst ↔ Shared pairs address
  names_increasing : ∀ group ∈ groups, group.2.Pairwise fun one other => one < other
  names_iff : ∀ group ∈ groups, ∀ name, name ∈ group.2 ↔ Gives pairs name group.1

structure Represents (labels : PinLabels) (pairs : List (String × Nat)) : Prop where
  addressOf_iff : ∀ name address, labels.addressOf name = .ok address ↔ Gives pairs name address
  nameOf_iff : ∀ name address, labels.nameOf address = .ok name ↔ Gives pairs name address
  entries_iff : ∀ name address, (name, address) ∈ labels.entries ↔ Gives pairs name address
  increasing : labels.entries.Pairwise fun one other => one.2 < other.2
  size_eq : labels.size = (pairs.map Prod.fst).dedup.length

inductive Outcome (pairs : List (String × Nat)) : Except Fault PinLabels → Prop
  /-- The first address that is no pin is refused, whatever else is wrong and even where a later pair
  gives its name another address. -/
  | outside {earlier later : List (String × Nat)} {name : String} {address : Nat}
      (split : pairs = earlier ++ (name, address) :: later)
      (before : ∀ pair ∈ earlier, pair.2 < pinCount) (beyond : pinCount ≤ address) :
      Outcome pairs (.error (.outOfRange .pinAddress address 0 63))
  | shared {groups : List (Nat × List String)} (inside : ∀ pair ∈ pairs, pair.2 < pinCount)
      (some : groups ≠ []) (lists : ListsShared pairs groups) :
      Outcome pairs (.error (.sharedAddresses groups))
  | labels {labels : PinLabels} (inside : ∀ pair ∈ pairs, pair.2 < pinCount)
      (apart : ∀ address, ¬ Shared pairs address) (represents : Represents labels pairs) :
      Outcome pairs (.ok labels)

variable {pairs held : List (String × Nat)}

theorem eq_of_increasing {α : Type} {less : α → α → Prop} {first second : List α}
    (asymmetric : ∀ one other, less one other → ¬ less other one)
    (increasing : first.Pairwise less) (increasing' : second.Pairwise less)
    (same : ∀ item, item ∈ first ↔ item ∈ second) : first = second := by
  have irreflexive : Std.Irrefl less := ⟨fun item itself => asymmetric item item itself itself⟩
  have antisymmetric : Std.Antisymm less :=
    ⟨fun one other before after => absurd after (asymmetric one other before)⟩
  exact List.Pairwise.eq_of_mem_iff increasing increasing' same

theorem Represents.unique {one other : PinLabels} (first : Represents one pairs)
    (second : Represents other pairs) : one = other := by
  have same : one.entries = other.entries := by
    apply eq_of_increasing _ first.increasing second.increasing
    · intro entry
      rw [first.entries_iff, second.entries_iff]
    · intro entry later
      exact Nat.lt_asymm
  cases one
  cases other
  congr

theorem ListsShared.subset {first second : List (Nat × List String)}
    (lists : ListsShared pairs first) (lists' : ListsShared pairs second) {group : Nat × List String}
    (member : group ∈ first) : group ∈ second := by
  have shared := (lists.shared_iff group.1).mp (List.mem_map_of_mem member)
  rcases List.mem_map.mp ((lists'.shared_iff group.1).mpr shared) with ⟨group', member', same⟩
  have names : group.2 = group'.2 := by
    apply eq_of_increasing _ (lists.names_increasing group member)
      (lists'.names_increasing group' member')
    · intro name
      rw [lists.names_iff group member, lists'.names_iff group' member', same]
    · intro one other
      exact lt_asymm
  have group_eq : group = group' := Prod.ext same.symm names
  rw [group_eq]
  exact member'

theorem ListsShared.unique {first second : List (Nat × List String)}
    (lists : ListsShared pairs first) (lists' : ListsShared pairs second) : first = second := by
  apply eq_of_increasing _ lists.increasing lists'.increasing
  · intro group
    exact ⟨lists.subset lists', lists'.subset lists⟩
  · intro one other
    exact Nat.lt_asymm

theorem ListsShared.exists_shared {groups : List (Nat × List String)}
    (lists : ListsShared pairs groups) (some : groups ≠ []) : ∃ address, Shared pairs address := by
  rcases List.exists_mem_of_ne_nil groups some with ⟨group, member⟩
  exact ⟨group.1, (lists.shared_iff group.1).mp (List.mem_map_of_mem member)⟩

theorem not_inside {earlier later : List (String × Nat)} {name : String} {address : Nat}
    (split : pairs = earlier ++ (name, address) :: later) (beyond : pinCount ≤ address)
    (inside : ∀ pair ∈ pairs, pair.2 < pinCount) : False := by
  have member : (name, address) ∈ pairs := by simp [split]
  have within : address < pinCount := inside (name, address) member
  omega

theorem Outcome.unique {one other : Except Fault PinLabels} (first : Outcome pairs one)
    (second : Outcome pairs other) : one = other := by
  cases first with
  | outside split before beyond =>
      cases second with
      | outside split' before' beyond' =>
          have same := eq_of_first (split.symm.trans split') before before'
            (Nat.not_lt_of_le beyond) (Nat.not_lt_of_le beyond')
          rw [(Prod.mk.inj same).2]
      | shared inside => exact (not_inside split beyond inside).elim
      | labels inside => exact (not_inside split beyond inside).elim
  | shared inside some lists =>
      cases second with
      | outside split _ beyond => exact (not_inside split beyond inside).elim
      | shared _ _ lists' => rw [lists.unique lists']
      | labels _ apart =>
          rcases lists.exists_shared some with ⟨address, shared⟩
          exact absurd shared (apart address)
  | labels inside apart represents =>
      cases second with
      | outside split _ beyond => exact (not_inside split beyond inside).elim
      | shared _ some lists =>
          rcases lists.exists_shared some with ⟨address, shared⟩
          exact absurd shared (apart address)
      | labels _ _ represents' => rw [represents.unique represents']

theorem mem_sharing_iff {name : String} {address : Nat} :
    name ∈ sharing held address ↔ (name, address) ∈ held := by
  simp [sharing]

theorem nodup_sharing (nodup : (held.map Prod.fst).Nodup) (address : Nat) :
    (sharing held address).Nodup := by
  have names : ((held.filter fun pair => pair.2 = address).map Prod.fst).Nodup :=
    nodup.sublist (List.filter_sublist.map Prod.fst)
  exact (List.mergeSort_perm _ _).nodup_iff.mpr names

theorem increasing_sharing (nodup : (held.map Prod.fst).Nodup) (address : Nat) :
    (sharing held address).Pairwise fun one other => one < other := by
  have ordered : (sharing held address).Pairwise fun one other => one ≤ other := by
    have sorted : (sharing held address).Pairwise fun one other => decide (one ≤ other) = true := by
      apply List.pairwise_mergeSort
      · simpa using fun _ _ _ => le_trans
      · simpa using le_total
    simpa using sorted
  have both := List.Pairwise.and ordered (nodup_sharing nodup address)
  apply both.imp
  intro one other related
  exact lt_of_le_of_ne related.1 related.2

theorem one_lt_length_iff {names : List String} (nodup : names.Nodup) :
    1 < names.length ↔ ∃ one other, one ≠ other ∧ one ∈ names ∧ other ∈ names := by
  rw [← List.toFinset_card_of_nodup nodup, Finset.one_lt_card]
  simp only [List.mem_toFinset]
  constructor
  · intro two
    rcases two with ⟨one, member, other, member', differs⟩
    exact ⟨one, other, differs, member, member'⟩
  · intro two
    rcases two with ⟨one, other, differs, member, member'⟩
    exact ⟨one, member, other, member', differs⟩

theorem mem_collisions_iff {group : Nat × List String} : group ∈ collisions held ↔
    group.1 < pinCount ∧ sharing held group.1 = group.2 ∧ 1 < group.2.length := by
  constructor
  · intro member
    simp only [collisions, List.mem_filter, List.mem_map, List.mem_range, decide_eq_true_eq] at member
    rcases member with ⟨⟨address, inside, rfl⟩, several⟩
    exact ⟨inside, rfl, several⟩
  · intro collides
    rcases collides with ⟨inside, names, several⟩
    simp only [collisions, List.mem_filter, List.mem_map, List.mem_range, decide_eq_true_eq]
    exact ⟨⟨group.1, inside, Prod.ext rfl names⟩, several⟩

theorem increasing_collisions (held : List (String × Nat)) :
    (collisions held).Pairwise fun one other => one.1 < other.1 := by
  apply List.Pairwise.filter
  rw [List.pairwise_map]
  exact List.pairwise_lt_range

theorem mem_byAddress_iff {entry : String × Nat} : entry ∈ byAddress held ↔ entry ∈ held :=
  List.mem_mergeSort

/-- Entries that are ordered by address are strictly so where no two share theirs. -/
theorem increasing_byAddress (nodup : (held.map Prod.fst).Nodup)
    (apart : ∀ one other address, (one, address) ∈ held → (other, address) ∈ held → one = other) :
    (byAddress held).Pairwise fun one other => one.2 < other.2 := by
  have ordered : (byAddress held).Pairwise fun one other => one.2 ≤ other.2 := by
    have sorted : (byAddress held).Pairwise fun one other => decide (one.2 ≤ other.2) = true := by
      apply List.pairwise_mergeSort
      · simpa using fun _ _ _ => Nat.le_trans
      · simpa using Nat.le_total
    simpa using sorted
  have different : (byAddress held).Nodup :=
    (List.mergeSort_perm _ _).nodup_iff.mpr (List.Nodup.of_map Prod.fst nodup)
  -- Two entries at one address have one name and are the same entry, which is not there twice.
  apply List.Pairwise.imp_of_mem _ (List.Pairwise.and ordered different)
  intro one other member member' related
  rcases related with ⟨before, differs⟩
  apply Nat.lt_of_le_of_ne before
  intro same
  apply differs
  apply Prod.ext _ same
  apply apart one.1 other.1 other.2
  · rw [← same]
    exact mem_byAddress_iff.mp member
  · exact mem_byAddress_iff.mp member'

theorem apart_of_increasing
    (increasing : (byAddress held).Pairwise fun one other => one.2 < other.2) {one other : String}
    {address : Nat} (there : (one, address) ∈ held) (there' : (other, address) ∈ held) :
    one = other := by
  have same := List.inj_on_of_nodup_map (nodup_of_increasing increasing) (mem_byAddress_iff.mpr there)
    (mem_byAddress_iff.mpr there') rfl
  exact congrArg Prod.fst same

theorem mem_assignAll_iff_gives {name : String} {address : Nat} :
    (name, address) ∈ Keyed.assignAll pairs ↔ Gives pairs name address :=
  Keyed.mem_assignAll_iff

theorem lt_of_gives (inside : ∀ pair ∈ pairs, pair.2 < pinCount) {name : String} {address : Nat}
    (gives : Gives pairs name address) : address < pinCount := by
  rcases gives with ⟨earlier, later, split, -⟩
  apply inside (name, address)
  simp [split]

theorem mem_sharing_iff_gives {name : String} {address : Nat} :
    name ∈ sharing (Keyed.assignAll pairs) address ↔ Gives pairs name address := by
  rw [mem_sharing_iff, mem_assignAll_iff_gives]

theorem shared_iff_several (address : Nat) :
    Shared pairs address ↔ 1 < (sharing (Keyed.assignAll pairs) address).length := by
  rw [one_lt_length_iff (nodup_sharing (Keyed.nodup_assignAll pairs) address)]
  simp only [mem_sharing_iff_gives]
  rfl

theorem listsShared_collisions (inside : ∀ pair ∈ pairs, pair.2 < pinCount) :
    ListsShared pairs (collisions (Keyed.assignAll pairs)) where
  increasing := increasing_collisions _
  shared_iff := by
    intro address
    rw [shared_iff_several]
    constructor
    · intro listed
      rcases List.mem_map.mp listed with ⟨group, member, rfl⟩
      rcases mem_collisions_iff.mp member with ⟨_, names, several⟩
      rw [names]
      exact several
    · intro several
      have below : address < pinCount := by
        rcases (shared_iff_several address).mpr several with ⟨one, _, _, gives, _⟩
        exact lt_of_gives inside gives
      have collides : (address, sharing (Keyed.assignAll pairs) address) ∈
          collisions (Keyed.assignAll pairs) := mem_collisions_iff.mpr ⟨below, rfl, several⟩
      exact List.mem_map_of_mem collides
  names_increasing := by
    intro group member
    rw [← (mem_collisions_iff.mp member).2.1]
    exact increasing_sharing (Keyed.nodup_assignAll pairs) group.1
  names_iff := by
    intro group member name
    rw [← (mem_collisions_iff.mp member).2.1]
    exact mem_sharing_iff_gives

theorem length_assignAll (pairs : List (String × Nat)) :
    (Keyed.assignAll pairs).length = (pairs.map Prod.fst).dedup.length := by
  have keys : ((Keyed.assignAll pairs).map Prod.fst).Perm (pairs.map Prod.fst).dedup := by
    rw [List.perm_ext_iff_of_nodup (Keyed.nodup_assignAll pairs) (List.nodup_dedup _)]
    intro name
    rw [List.mem_dedup, ← Keyed.lookup_ne_none_iff, Keyed.lookup_assignAll,
      Keyed.lookup_ne_none_iff, List.map_reverse, List.mem_reverse]
  calc
    (Keyed.assignAll pairs).length = ((Keyed.assignAll pairs).map Prod.fst).length := by simp
    _ = (pairs.map Prod.fst).dedup.length := keys.length_eq

theorem represents_of_entries {labels : PinLabels}
    (entries : labels.entries = byAddress (Keyed.assignAll pairs)) : Represents labels pairs := by
  have member (name : String) (address : Nat) :
      (name, address) ∈ labels.entries ↔ Gives pairs name address := by
    rw [entries, mem_byAddress_iff, mem_assignAll_iff_gives]
  exact {
    addressOf_iff := fun name address => by rw [← mem_entries_iff, member]
    nameOf_iff := fun name address => by rw [← mem_entries_iff_nameOf, member]
    entries_iff := member
    increasing := labels.increasing
    size_eq := by rw [size, entries, byAddress, List.length_mergeSort, length_assignAll] }

theorem apart_iff : (∀ address, ¬ Shared pairs address) ↔
    (byAddress (Keyed.assignAll pairs)).Pairwise fun one other => one.2 < other.2 := by
  constructor
  · intro apart
    apply increasing_byAddress (Keyed.nodup_assignAll pairs)
    intro one other address there there'
    by_contra differs
    exact apart address
      ⟨one, other, differs, mem_assignAll_iff_gives.mp there, mem_assignAll_iff_gives.mp there'⟩
  · intro increasing address shared
    rcases shared with ⟨one, other, differs, gives, gives'⟩
    apply differs
    exact apart_of_increasing increasing (mem_assignAll_iff_gives.mpr gives)
      (mem_assignAll_iff_gives.mpr gives')

theorem outcome_ofPairs (pairs : List (String × Nat)) : Outcome pairs (ofPairs pairs) := by
  unfold ofPairs
  split
  · next pair found =>
      rcases List.find?_eq_some_iff_append.mp found with ⟨beyond, earlier, later, split, before⟩
      apply Outcome.outside split
      · simpa using before
      · simpa using beyond
  · next none =>
      have inside : ∀ pair ∈ pairs, pair.2 < pinCount := by
        simpa using List.find?_eq_none.mp none
      dsimp only
      split
      · next increasing => exact .labels inside (apart_iff.mpr increasing) (represents_of_entries rfl)
      · next not_increasing =>
          -- Some address is shared, so the list of shared addresses is not empty.
          apply Outcome.shared inside _ (listsShared_collisions inside)
          intro nothing
          apply not_increasing
          apply apart_iff.mp
          intro address shared
          have listed := ((listsShared_collisions inside).shared_iff address).mpr shared
          rw [nothing] at listed
          cases listed

/-- What comes of pairs is settled by the map that they stand for and by the first address that is no
pin. -/
theorem ofPairs_eq_iff (pairs : List (String × Nat)) (result : Except Fault PinLabels) :
    ofPairs pairs = result ↔ Outcome pairs result := by
  constructor
  · intro same
    rw [← same]
    exact outcome_ofPairs pairs
  · intro outcome
    exact (outcome_ofPairs pairs).unique outcome

end CcdController.PinLabels
