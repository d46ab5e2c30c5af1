import Laplace.Highway.Coordinate
import Laplace.Lib.Lists
import Laplace.Lib.Sorting

/-!
# The registry of grammars (universal_ast.cpp:113-131, 250-382)

A registry sorts its declarations by provider fingerprint and compares neighbours in three keys. Equal
provider fingerprints end up side by side; equal grammar coordinates and equal kind bases need not.
-/

namespace Laplace.UniversalAst

open Highway (Coordinate Key coordinateCalculate kindGrammarSymbol)

/-- `laplace_universal_ast_status`, as far as the registry answers it. -/
inductive Status
  | ok | invalidArgument | grammarInvalid | grammarDuplicate
deriving DecidableEq, Repr

/-- `laplace_grammar_provider_declaration` -/
structure GrammarProviderDeclaration where
  grammarCoordinate : Key
  providerFingerprint : Digest256
  releaseFingerprint : Digest256
  conformanceFingerprint : Digest256
  kindBase : UInt64
  kindCount : UInt64
  flags : UInt32
  reserved : UInt32
deriving DecidableEq

structure GrammarEntry where
  declaration : GrammarProviderDeclaration
  coordinate : Coordinate
deriving DecidableEq

structure GrammarRegistry where
  fingerprint : Digest256
  entries : List GrammarEntry
deriving DecidableEq

def symbolLowMask : UInt64 := 0xffff

/-- `GrammarEntryLess` orders by this key. -/
def GrammarEntry.key (entry : GrammarEntry) : ℕ ×ₗ ℕ :=
  toLex (entry.declaration.providerFingerprint.toNat, entry.coordinate.coordinate.toNat)

section Functions

variable (blake3 : Blake3) (sort : Sorting GrammarEntry.key)

/-- `CoordinateForKey` -/
def coordinateForKey (key : Key) (expectedKind : UInt32) : Option Coordinate :=
  if key.kind = expectedKind ∧ key.reserved = 0 then
    match coordinateCalculate blake3 key with
    | .ok output => if output.kind = expectedKind then some output else none
    | .error _ => none
  else none

/-- The loop over the declarations, for one of them. -/
def grammarEntry (declaration : GrammarProviderDeclaration) : Option GrammarEntry :=
  if declaration.flags ≠ 0 ∨ declaration.reserved ≠ 0 ∨ declaration.providerFingerprint = 0 ∨
      declaration.releaseFingerprint = 0 ∨ declaration.conformanceFingerprint = 0 ∨
      declaration.kindBase &&& symbolLowMask ≠ 0 ∨ declaration.kindCount = 0 ∨
      declaration.kindCount > symbolLowMask + 1 then none
  else do
    let coordinate ← coordinateForKey blake3 declaration.grammarCoordinate kindGrammarSymbol
    return ⟨declaration, coordinate⟩

/-- `HashCoordinate` -/
def coordinateBytes (coordinate : Coordinate) : List UInt8 :=
  coordinate.coordinate.bytes ++ coordinate.collisionFingerprint.bytes ++ u32Bytes coordinate.kind ++
    u64Bytes coordinate.version

/-- `BeginHash` -/
def beginHash (domain : String) : List UInt8 :=
  u64Bytes (UInt64.ofNat (domainBytes domain).length) ++ domainBytes domain

/-- `GrammarRegistryFingerprint` -/
def grammarRegistryFingerprint (entries : List GrammarEntry) : Digest256 :=
  blake3 (beginHash "laplace-grammar-registry-v1" ++ u64Bytes (UInt64.ofNat entries.length) ++
    entries.flatMap fun entry =>
      coordinateBytes entry.coordinate ++ entry.declaration.providerFingerprint.bytes ++
      entry.declaration.releaseFingerprint.bytes ++ entry.declaration.conformanceFingerprint.bytes ++
      u64Bytes entry.declaration.kindBase ++ u64Bytes entry.declaration.kindCount ++
      u32Bytes entry.declaration.flags)

/-- Whether two entries have a key in common. -/
def GrammarEntry.agrees (prior current : GrammarEntry) : Bool :=
  prior.declaration.providerFingerprint = current.declaration.providerFingerprint ∨
    prior.coordinate.coordinate = current.coordinate.coordinate ∨
    prior.declaration.kindBase = current.declaration.kindBase

/-- The loop over the sorted entries. -/
def neighboursAgree : List GrammarEntry → Bool
  | prior :: current :: rest => prior.agrees current || neighboursAgree (current :: rest)
  | _ => false

/-- `laplace_grammar_registry_create` -/
def grammarRegistryCreate (declarations : List GrammarProviderDeclaration) :
    Except Status GrammarRegistry :=
  if declarations = [] then .error .invalidArgument
  else match declarations.mapM (grammarEntry blake3) with
    | none => .error .grammarInvalid
    | some entries =>
      if neighboursAgree (sort.sort entries) then .error .grammarDuplicate
      else .ok ⟨grammarRegistryFingerprint blake3 (sort.sort entries), sort.sort entries⟩

end Functions

/-! ## Any order of the declarations -/

section Registry

variable {entries : List GrammarEntry}

theorem sorted_providers (sort : Sorting GrammarEntry.key) (entries : List GrammarEntry) :
    (sort.sort entries).Pairwise fun prior later =>
      prior.declaration.providerFingerprint.toNat ≤ later.declaration.providerFingerprint.toNat := by
  refine (sort.sorted entries).imp fun {prior later} hle => ?_
  rcases Prod.Lex.toLex_le_toLex.1 hle with hlt | ⟨heq, -⟩
  · exact hlt.le
  · exact heq.le

theorem neighbours_differ : ∀ {entries : List GrammarEntry}, neighboursAgree entries = false →
    ∀ {index : ℕ} {prior current : GrammarEntry}, entries[index]? = some prior →
      entries[index + 1]? = some current → prior.agrees current = false
  | [], _, _, _, _, hprior, _ => nomatch hprior
  | [_], _, _, _, _, _, hcurrent => nomatch hcurrent
  | first :: second :: rest, h, 0, prior, current, hprior, hcurrent => by
    rw [neighboursAgree, Bool.or_eq_false_iff] at h
    obtain rfl := Option.some.inj hprior
    obtain rfl := Option.some.inj hcurrent
    exact h.1
  | first :: second :: rest, h, index + 1, prior, current, hprior, hcurrent => by
    rw [neighboursAgree, Bool.or_eq_false_iff] at h
    exact neighbours_differ h.2 hprior hcurrent

theorem repeats_of_neighbours : ∀ {entries : List GrammarEntry}, neighboursAgree entries = false →
    repeats (fun entry => entry.declaration.providerFingerprint.toNat) entries = false
  | [], _ => rfl
  | [_], _ => rfl
  | first :: second :: rest, h => by
    rw [neighboursAgree, Bool.or_eq_false_iff] at h
    rw [repeats, repeats_of_neighbours h.2, Bool.or_false, decide_eq_false_iff_not]
    intro heq
    have hagrees : first.agrees second = true :=
      decide_eq_true (.inl (BitVec.eq_of_toNat_eq heq))
    rw [hagrees] at h
    cases h.1

theorem providers_increasing {sort : Sorting GrammarEntry.key}
    (h : neighboursAgree (sort.sort entries) = false) : (sort.sort entries).Pairwise fun prior later =>
      prior.declaration.providerFingerprint.toNat < later.declaration.providerFingerprint.toNat :=
  increasing_of_repeats (sorted_providers sort entries) (repeats_of_neighbours h)

theorem sort_eq_of_neighbours {sort sort' : Sorting GrammarEntry.key} {entries' : List GrammarEntry}
    (hperm : entries'.Perm entries) (h : neighboursAgree (sort.sort entries) = false) :
    sort'.sort entries' = sort.sort entries := by
  have hkeys : (entries.map GrammarEntry.key).Nodup := by
    refine (((sort.perm entries).map GrammarEntry.key).nodup_iff).1 ?_
    rw [List.Nodup, List.pairwise_map]
    refine (providers_increasing h).imp fun {prior later} hlt heq => ?_
    exact hlt.ne (congrArg (fun key => (ofLex key).1) heq)
  exact (sort.sort_congr sort' hperm.symm hkeys).symm

theorem neighboursAgree_congr (sort : Sorting GrammarEntry.key) {sort' : Sorting GrammarEntry.key}
    {entries' : List GrammarEntry} (hperm : entries'.Perm entries) :
    neighboursAgree (sort'.sort entries') = neighboursAgree (sort.sort entries) := by
  cases h : neighboursAgree (sort.sort entries) with
  | false => rw [sort_eq_of_neighbours hperm h, h]
  | true =>
    by_contra h'
    rw [Bool.not_eq_true] at h'
    rw [← sort_eq_of_neighbours hperm.symm h', h] at h'
    cases h'

end Registry

theorem grammarRegistryCreate_perm (blake3 : Blake3) (sort sort' : Sorting GrammarEntry.key)
    {declarations declarations' : List GrammarProviderDeclaration}
    (hperm : declarations'.Perm declarations) : grammarRegistryCreate blake3 sort' declarations' =
      grammarRegistryCreate blake3 sort declarations := by
  rw [grammarRegistryCreate, grammarRegistryCreate]
  by_cases hempty : declarations = []
  · subst hempty
    rw [hperm.eq_nil, if_pos rfl, if_pos rfl]
  rw [if_neg hempty, if_neg fun hnil => hempty (by rw [hnil] at hperm; exact hperm.symm.eq_nil)]
  rcases mapM_perm (f := grammarEntry blake3) hperm with
    ⟨hnone', hnone⟩ | ⟨entries, entries', hentries, hentries', hentriesPerm⟩
  · rw [hnone, hnone']
  · rw [hentries, hentries']
    dsimp only
    rw [neighboursAgree_congr sort hentriesPerm]
    by_cases hagree : neighboursAgree (sort.sort entries) = true
    · rw [if_pos hagree, if_pos hagree]
    · rw [if_neg hagree, if_neg hagree, sort_eq_of_neighbours hentriesPerm (Bool.not_eq_true _ ▸ hagree)]

/-! ## Keys that occur twice -/

/-- What a registry promises of the declarations that it is made from. -/
structure Unambiguous (blake3 : Blake3) (sort : Sorting GrammarEntry.key)
    (declarations : List GrammarProviderDeclaration) : Prop where
  distinct : ∀ registry, grammarRegistryCreate blake3 sort declarations = .ok registry →
    registry.entries.Pairwise fun prior later =>
      prior.declaration.providerFingerprint ≠ later.declaration.providerFingerprint ∧
      prior.coordinate.coordinate ≠ later.coordinate.coordinate ∧
      prior.declaration.kindBase ≠ later.declaration.kindBase
  ordered : ∀ (sort' : Sorting GrammarEntry.key) (declarations' : List GrammarProviderDeclaration),
    declarations'.Perm declarations → grammarRegistryCreate blake3 sort' declarations' =
      grammarRegistryCreate blake3 sort declarations

/-- The coordinate of the grammar that is declared. -/
def GrammarProviderDeclaration.coordinate (blake3 : Blake3)
    (declaration : GrammarProviderDeclaration) : Option Id128 :=
  (coordinateForKey blake3 declaration.grammarCoordinate kindGrammarSymbol).map Coordinate.coordinate

/-- Declarations with the provider of another one between theirs differ in their coordinates and kind
bases, at least where all declarations are valid and neighbours differ. -/
def FarDiffer (blake3 : Blake3) (sort : Sorting GrammarEntry.key)
    (declarations : List GrammarProviderDeclaration) : Prop :=
  ∀ entries, declarations.mapM (grammarEntry blake3) = some entries →
    neighboursAgree (sort.sort entries) = false →
    ∀ prior ∈ declarations, ∀ between ∈ declarations, ∀ later ∈ declarations,
      prior.providerFingerprint.toNat < between.providerFingerprint.toNat →
      between.providerFingerprint.toNat < later.providerFingerprint.toNat →
        prior.coordinate blake3 ≠ later.coordinate blake3 ∧ prior.kindBase ≠ later.kindBase

theorem entries_of_mapM {blake3 : Blake3} {declarations : List GrammarProviderDeclaration}
    {entries : List GrammarEntry} (h : declarations.mapM (grammarEntry blake3) = some entries) :
    entries.map GrammarEntry.declaration = declarations ∧ ∀ entry ∈ entries,
      entry.declaration.coordinate blake3 = some entry.coordinate.coordinate := by
  have hall := mapM_eq_some.1 h
  clear h
  induction hall with
  | nil => exact ⟨rfl, nofun⟩
  | cons hentry _ ih =>
    unfold grammarEntry at hentry
    split at hentry
    · cases hentry
    · obtain ⟨coordinate, hcoordinate, ⟨⟩⟩ := Option.bind_eq_some_iff.1 hentry
      exact ⟨congrArg _ ih.1, List.forall_mem_cons.2 ⟨congrArg _ hcoordinate, ih.2⟩⟩

theorem agrees_eq_false {prior current : GrammarEntry} (h : prior.agrees current = false) :
    prior.coordinate.coordinate ≠ current.coordinate.coordinate ∧
      prior.declaration.kindBase ≠ current.declaration.kindBase := by
  rw [GrammarEntry.agrees, decide_eq_false_iff_not, not_or, not_or] at h
  exact h.2

/-- **A registry is unambiguous** exactly when the entries that are not compared differ. -/
theorem grammar_registry_unambiguous (blake3 : Blake3)
    (sort : Sorting GrammarEntry.key) (declarations : List GrammarProviderDeclaration) :
    Unambiguous blake3 sort declarations ↔ FarDiffer blake3 sort declarations := by
  constructor
  · intro h entries hentries hneighbours prior hprior between _ later hlater hleft hright
    have hcreate : grammarRegistryCreate blake3 sort declarations =
        .ok ⟨grammarRegistryFingerprint blake3 (sort.sort entries), sort.sort entries⟩ := by
      rw [grammarRegistryCreate, if_neg (List.ne_nil_of_mem hprior), hentries]
      exact if_neg (by rw [hneighbours]; exact Bool.false_ne_true)
    obtain ⟨rfl, hcoordinate⟩ := entries_of_mapM hentries
    obtain ⟨first, hfirst, rfl⟩ := List.mem_map.1 hprior
    obtain ⟨last, hlast, rfl⟩ := List.mem_map.1 hlater
    have : Std.Symm fun prior later : GrammarEntry =>
        prior.declaration.providerFingerprint ≠ later.declaration.providerFingerprint ∧
        prior.coordinate.coordinate ≠ later.coordinate.coordinate ∧
        prior.declaration.kindBase ≠ later.declaration.kindBase :=
      ⟨fun _ _ h => ⟨h.1.symm, h.2.1.symm, h.2.2.symm⟩⟩
    have hdistinct := (h.distinct _ hcreate).forall ((sort.perm entries).mem_iff.2 hfirst)
      ((sort.perm entries).mem_iff.2 hlast) (by rintro rfl; omega)
    rw [hcoordinate first hfirst, hcoordinate last hlast]
    exact ⟨fun heq => hdistinct.2.1 (Option.some.inj heq), hdistinct.2.2⟩
  · intro h
    refine ⟨fun registry hregistry => ?_, fun sort' declarations' hperm =>
      grammarRegistryCreate_perm blake3 sort sort' hperm⟩
    rw [grammarRegistryCreate] at hregistry
    split at hregistry
    · cases hregistry
    split at hregistry
    · cases hregistry
    next entries hentries =>
    split at hregistry
    · cases hregistry
    next hneighbours =>
    cases hregistry
    rw [Bool.not_eq_true] at hneighbours
    refine List.pairwise_iff_getElem.2 fun left right hleft hright hlt => ?_
    have hprior := List.getElem?_eq_getElem hleft
    have hlater := List.getElem?_eq_getElem hright
    have hproviders := List.pairwise_iff_getElem.1 (providers_increasing hneighbours)
    refine ⟨fun heq => (hproviders left right hleft hright hlt).ne (congrArg BitVec.toNat heq), ?_⟩
    by_cases hnext : right = left + 1
    · subst hnext
      exact agrees_eq_false (neighbours_differ hneighbours hprior hlater)
    -- the neighbour on the left is between the two
    · obtain ⟨rfl, hcoordinate⟩ := entries_of_mapM hentries
      have hmem {index : ℕ} (h : index < (sort.sort entries).length) :
          (sort.sort entries)[index] ∈ entries := (sort.perm entries).mem_iff.1 (List.getElem_mem h)
      have hmiddle := lt_of_le_of_lt (by omega : left + 1 ≤ right) hright
      have hdiffer := h entries hentries hneighbours _ (List.mem_map_of_mem (hmem hleft)) _
        (List.mem_map_of_mem (hmem hmiddle)) _ (List.mem_map_of_mem (hmem hright))
        (hproviders left _ hleft hmiddle (by omega)) (hproviders _ right hmiddle hright (by omega))
      rw [hcoordinate _ (hmem hleft), hcoordinate _ (hmem hright)] at hdiffer
      exact ⟨fun heq => hdiffer.1 (congrArg some heq), hdiffer.2⟩

/-- A declaration of the grammar that an authority calls `identifier`. -/
def declarationOf (identifier : Id128) (provider : Digest256) (kindBase : UInt64) :
    GrammarProviderDeclaration :=
  ⟨⟨kindGrammarSymbol, 0, 1, 1, 1, identifier, 1⟩, provider, 1, 1, kindBase, 1, 0, 0⟩

/-- A digest that tells the sums of the bytes apart. -/
def sumDigest (bytes : List UInt8) : Digest256 :=
  BitVec.ofNat 256 (2 ^ 128 * (1 + (bytes.map UInt8.toNat).sum))

/-- The first and the last provider have one kind base, and the one between them another. -/
theorem grammar_registry_unambiguous_apart : ¬ Unambiguous sumDigest (Sorting.stable GrammarEntry.key)
    [declarationOf 1 1 0, declarationOf 2 2 0x10000, declarationOf 3 3 0] := by
  have hentries : ∃ first second third, [declarationOf 1 1 0, declarationOf 2 2 0x10000,
        declarationOf 3 3 0].mapM (grammarEntry sumDigest) = some [first, second, third] ∧
      [first, second, third].Pairwise (fun prior later => prior.key ≤ later.key) ∧
      neighboursAgree [first, second, third] = false ∧
      first.declaration.kindBase = third.declaration.kindBase :=
    ⟨⟨declarationOf 1 1 0, 2848, BitVec.ofNat 256 (2 ^ 128 * 4085), 1, 0, 1⟩,
      ⟨declarationOf 2 2 0x10000, 2849, BitVec.ofNat 256 (2 ^ 128 * 4086), 1, 0, 1⟩,
      ⟨declarationOf 3 3 0, 2850, BitVec.ofNat 256 (2 ^ 128 * 4087), 1, 0, 1⟩, by decide +kernel,
      by decide, by decide, rfl⟩
  obtain ⟨first, second, third, hmap, hsorted, hneighbours, hbase⟩ := hentries
  intro h
  have hcreate := h.distinct ⟨grammarRegistryFingerprint sumDigest [first, second, third],
    [first, second, third]⟩ (by
      rw [grammarRegistryCreate, if_neg (List.cons_ne_nil _ _), hmap]
      dsimp only
      rw [Sorting.stable_sort hsorted, hneighbours]
      rfl)
  exact ((List.pairwise_cons.1 hcreate).1 third (by simp)).2.2 hbase

end Laplace.UniversalAst
