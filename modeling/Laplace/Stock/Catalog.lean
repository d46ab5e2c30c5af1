import Laplace.Digest
import Laplace.Lib.Sorting

/-!
# Stock recipe catalogs (stock_recipe.c, contracts/stock-recipe.json)

A catalog is a set of recipes under source recipes, and of perfcache planes of these recipes. Its
checks run over arrays in the order of the ids; what they accept is a property of the two sets
(`compileCatalog_ok`).

| here | there |
| --- | --- |
| `compileCatalog`      | `laplace_stock_recipe_compile_catalog`, where `malloc` succeeds |
| `compileCatalogItems` | `laplace_stock_recipe_compile_catalog_items`, likewise |
| `Search`              | `bsearch` in `find_recipe` |
-/

namespace Laplace.Stock

/-- `laplace_stock_recipe_status` -/
inductive Status
  | ok | invalidArgument | invalid | identityMismatch | duplicate | parentMissing | hierarchyInvalid
  | siblingDuplicate | perfcacheInvalid | perfcacheIdentityMismatch | perfcacheDuplicate
  | perfcacheRecipeMissing | resourceInsufficient | overflow | segmentationLawMismatch
deriving DecidableEq, Repr

/-- `laplace_stock_recipe` -/
structure Recipe where
  recipeId : Digest256 := 0
  parentRecipeId : Digest256 := 0
  sourceProfileId : Digest256 := 0
  sourceArtifactId : Digest256 := 0
  grammarProviderId : Digest256 := 0
  codecProviderId : Digest256 := 0
  loweringProgramId : Digest256 := 0
  recompositionProgramId : Digest256 := 0
  semanticSegmentationLawId : Digest256 := 0
  conformanceId : Digest256 := 0
  lossPolicyId : Digest256 := 0
  correctionEpochId : Digest256 := 0
  siblingOrdinal : UInt64 := 0
  scopeKind : UInt32 := 0
  modalityKind : UInt32 := 0
  version : UInt32 := 0
  flags : UInt32 := 0
deriving DecidableEq

/-- `laplace_stock_perfcache_plane` -/
structure Plane where
  planeId : Digest256 := 0
  recipeId : Digest256 := 0
  keyKindId : Digest256 := 0
  valueKindId : Digest256 := 0
  dependencyEpochId : Digest256 := 0
  generationProgramId : Digest256 := 0
  semanticVerifierId : Digest256 := 0
  invalidationLawId : Digest256 := 0
  rebuildLawId : Digest256 := 0
  version : UInt32 := 0
  flags : UInt32 := 0
deriving DecidableEq

/-- `laplace_stock_catalog_item` -/
structure Item where
  recipe : Recipe := {}
  perfcachePlane : Plane := {}
  itemKind : UInt32
  flags : UInt32

/-- `laplace_stock_catalog_receipt` -/
structure Receipt where
  catalogId : Digest256
  recipeSetFingerprint : Digest256
  perfcacheSetFingerprint : Digest256
  recipeCount : UInt64
  sourceCount : UInt64
  perfcachePlaneCount : UInt64
  maximumScopeKind : UInt32
  version : UInt32
  status : Status
  flags : UInt32
deriving DecidableEq

/-- `laplace_stock_recipe_error` -/
structure Failure where
  recipeIndex : UInt64
  perfcacheIndex : UInt64
  status : Status
deriving DecidableEq

def stockVersion : UInt32 := 1
def scopeSource : UInt32 := 1
def scopeSemanticConstruction : UInt32 := 6
def itemRecipe : UInt32 := 1
def itemPerfcachePlane : UInt32 := 2

/-- `fail` -/
def fail {α : Type} (status : Status) (recipeIndex planeIndex : ℕ) : Except Failure α :=
  .error ⟨UInt64.ofNat recipeIndex, UInt64.ofNat planeIndex, status⟩

/-! ## Identities -/

/-- `recipe_shape_valid` -/
def recipeShapeValid (recipe : Recipe) : Bool :=
  (if recipe.scopeKind = scopeSource then recipe.parentRecipeId = 0 else recipe.parentRecipeId ≠ 0) ∧
    recipe.sourceProfileId ≠ 0 ∧ recipe.sourceArtifactId ≠ 0 ∧ recipe.grammarProviderId ≠ 0 ∧
    recipe.codecProviderId ≠ 0 ∧ recipe.loweringProgramId ≠ 0 ∧ recipe.recompositionProgramId ≠ 0 ∧
    recipe.semanticSegmentationLawId ≠ 0 ∧ recipe.conformanceId ≠ 0 ∧ recipe.lossPolicyId ≠ 0 ∧
    recipe.correctionEpochId ≠ 0 ∧ recipe.siblingOrdinal > 0 ∧ recipe.scopeKind ≥ scopeSource ∧
    recipe.scopeKind ≤ scopeSemanticConstruction ∧ recipe.modalityKind > 0 ∧
    recipe.version = stockVersion ∧ recipe.flags = 0

/-- `plane_shape_valid` -/
def planeShapeValid (plane : Plane) : Bool :=
  plane.recipeId ≠ 0 ∧ plane.keyKindId ≠ 0 ∧ plane.valueKindId ≠ 0 ∧ plane.dependencyEpochId ≠ 0 ∧
    plane.generationProgramId ≠ 0 ∧ plane.semanticVerifierId ≠ 0 ∧ plane.invalidationLawId ≠ 0 ∧
    plane.rebuildLawId ≠ 0 ∧ plane.version = stockVersion ∧ plane.flags = 0

def recipeKey (recipe : Recipe) : ℕ := recipe.recipeId.toNat

def planeKey (plane : Plane) : ℕ := plane.planeId.toNat

/-- `bsearch` among recipes in the order of their ids; which one of several is up to it. -/
structure Search where
  find : List Recipe → Digest256 → Option Recipe
  found : ∀ {l recipeId recipe}, find l recipeId = some recipe →
    recipe ∈ l ∧ recipe.recipeId = recipeId
  complete : ∀ {l recipeId}, l.Pairwise (fun a b => recipeKey a ≤ recipeKey b) →
    find l recipeId = none → ∀ recipe ∈ l, recipe.recipeId ≠ recipeId

/-- The first of several. -/
def Search.first : Search where
  find l recipeId := l.find? (·.recipeId = recipeId)
  found h := ⟨List.mem_of_find?_eq_some h, by simpa using List.find?_some h⟩
  complete _ h recipe hr := by simpa using List.find?_eq_none.1 h recipe hr

section Catalog

variable (blake3 : Blake3)

/-- `laplace_stock_recipe_identify` -/
def identify (recipe : Recipe) : Except Status Digest256 :=
  if !recipeShapeValid recipe then .error .invalid
  else .ok (blake3 (domainBytes "laplace.stock-recipe.v1" ++ recipe.parentRecipeId.bytes ++
    recipe.sourceProfileId.bytes ++ recipe.sourceArtifactId.bytes ++ recipe.grammarProviderId.bytes ++
    recipe.codecProviderId.bytes ++ recipe.loweringProgramId.bytes ++
    recipe.recompositionProgramId.bytes ++ recipe.semanticSegmentationLawId.bytes ++
    recipe.conformanceId.bytes ++ recipe.lossPolicyId.bytes ++ recipe.correctionEpochId.bytes ++
    u64Bytes recipe.siblingOrdinal ++ u32Bytes recipe.scopeKind ++ u32Bytes recipe.modalityKind ++
    u32Bytes recipe.version ++ u32Bytes recipe.flags))

/-- `laplace_stock_perfcache_plane_identify` -/
def planeIdentify (plane : Plane) : Except Status Digest256 :=
  if !planeShapeValid plane then .error .perfcacheInvalid
  else .ok (blake3 (domainBytes "laplace.stock-recipe.perfcache-plane.v1" ++ plane.recipeId.bytes ++
    plane.keyKindId.bytes ++ plane.valueKindId.bytes ++ plane.dependencyEpochId.bytes ++
    plane.generationProgramId.bytes ++ plane.semanticVerifierId.bytes ++
    plane.invalidationLawId.bytes ++ plane.rebuildLawId.bytes ++ u32Bytes plane.version ++
    u32Bytes plane.flags))

/-! ## The loops -/

/-- A loop that ends at the first element that fails. -/
def forEach {α : Type} (check : α → ℕ → Except Failure Unit) : List α → ℕ → Except Failure Unit
  | [], _ => .ok ()
  | a :: l, index =>
    match check a index with
    | .error failure => .error failure
    | .ok () => forEach check l (index + 1)

def checkIdentity (recipe : Recipe) (index : ℕ) : Except Failure Unit :=
  match identify blake3 recipe with
  | .error status => fail status index 0
  | .ok identity => if identity ≠ recipe.recipeId then fail .identityMismatch index 0 else .ok ()

def checkPlaneIdentity (plane : Plane) (index : ℕ) : Except Failure Unit :=
  match planeIdentify blake3 plane with
  | .error status => fail status 0 index
  | .ok identity =>
    if identity ≠ plane.planeId then fail .perfcacheIdentityMismatch 0 index else .ok ()

variable (search : Search)

/-- The checks of the loop over the ordered recipes. -/
def checkRecipe (ordered : List Recipe) (recipe : Recipe) (index : ℕ) : Except Failure Unit :=
  if index ≠ 0 ∧ ordered[index - 1]?.any (·.recipeId = recipe.recipeId) then fail .duplicate index 0
  else if ordered.head?.any (·.semanticSegmentationLawId ≠ recipe.semanticSegmentationLawId) then
    fail .segmentationLawMismatch index 0
  else if recipe.scopeKind = scopeSource then .ok ()
  else match search.find ordered recipe.parentRecipeId with
    | none => fail .parentMissing index 0
    | some parent =>
      if parent.sourceProfileId ≠ recipe.sourceProfileId ∨ parent.scopeKind ≥ recipe.scopeKind then
        fail .hierarchyInvalid index 0
      else .ok ()

/-- Two recipes with one place among their siblings. -/
def clash (recipe other : Recipe) : Bool :=
  recipe.siblingOrdinal = other.siblingOrdinal ∧ recipe.parentRecipeId = other.parentRecipeId ∧
    recipe.sourceProfileId = other.sourceProfileId

/-- The loop over the pairs of recipes. -/
def checkSiblings : List Recipe → ℕ → Except Failure Unit
  | [], _ => .ok ()
  | recipe :: recipes, index =>
    match forEach (fun other i => if clash recipe other then fail .siblingDuplicate i 0 else .ok ())
      recipes (index + 1) with
    | .error failure => .error failure
    | .ok () => checkSiblings recipes (index + 1)

/-- The checks of the loop over the ordered planes. -/
def checkPlane (recipes : List Recipe) (ordered : List Plane) (plane : Plane) (index : ℕ) :
    Except Failure Unit :=
  if index ≠ 0 ∧ ordered[index - 1]?.any (·.planeId = plane.planeId) then
    fail .perfcacheDuplicate 0 index
  else if (search.find recipes plane.recipeId).isNone then fail .perfcacheRecipeMissing 0 index
  else .ok ()

/-! ## Compilation -/

/-- The receipt of ordered recipes and planes. -/
def receiptOf (recipes : List Recipe) (planes : List Plane) : Receipt :=
  let recipeSet := blake3 (recipes.flatMap fun recipe => recipe.recipeId.bytes)
  let planeSet := blake3 (planes.flatMap fun plane => plane.planeId.bytes)
  let sourceCount := UInt64.ofNat (recipes.countP (·.scopeKind = scopeSource))
  let maximumScope := recipes.foldl
    (fun maximum recipe => if recipe.scopeKind > maximum then recipe.scopeKind else maximum) 0
  { catalogId := blake3 (domainBytes "laplace.stock-recipe.catalog.v1" ++ recipeSet.bytes ++
      planeSet.bytes ++ u64Bytes (UInt64.ofNat recipes.length) ++ u64Bytes sourceCount ++
      u64Bytes (UInt64.ofNat planes.length) ++ u32Bytes maximumScope ++ u32Bytes stockVersion)
    recipeSetFingerprint := recipeSet
    perfcacheSetFingerprint := planeSet
    recipeCount := UInt64.ofNat recipes.length
    sourceCount
    perfcachePlaneCount := UInt64.ofNat planes.length
    maximumScopeKind := maximumScope
    version := stockVersion
    status := .ok
    flags := 0 }

variable (sortRecipes : Sorting recipeKey) (sortPlanes : Sorting planeKey)

/-- `laplace_stock_recipe_compile_catalog` -/
def compileCatalog (recipes : List Recipe) (planes : List Plane) : Except Failure Receipt :=
  if recipes = [] then fail .invalidArgument 0 0
  else do
    forEach (checkIdentity blake3) recipes 0
    let orderedRecipes := sortRecipes.sort recipes
    forEach (checkRecipe search orderedRecipes) orderedRecipes 0
    checkSiblings orderedRecipes 0
    if orderedRecipes.countP (·.scopeKind = scopeSource) = 0 then fail .hierarchyInvalid 0 0
    else
      forEach (checkPlaneIdentity blake3) planes 0
      let orderedPlanes := sortPlanes.sort planes
      forEach (checkPlane search orderedRecipes orderedPlanes) orderedPlanes 0
      return receiptOf blake3 orderedRecipes orderedPlanes

/-- The loop over the items; it appends to the recipes and to the planes. -/
def splitItems : List Item → ℕ → List Recipe × List Plane → Except Failure (List Recipe × List Plane)
  | [], _, split => .ok split
  | item :: items, index, (recipes, planes) =>
    if item.flags ≠ 0 then fail .invalid index index
    else if item.itemKind = itemRecipe ∧ item.perfcachePlane = {} then
      splitItems items (index + 1) (recipes ++ [item.recipe], planes)
    else if item.itemKind = itemPerfcachePlane ∧ item.recipe = {} then
      splitItems items (index + 1) (recipes, planes ++ [item.perfcachePlane])
    else fail .invalid index index

/-- `laplace_stock_recipe_compile_catalog_items` -/
def compileCatalogItems (items : List Item) : Except Failure Receipt :=
  if items = [] then fail .invalidArgument 0 0
  else do
    let (recipes, planes) ← splitItems items 0 ([], [])
    compileCatalog blake3 search sortRecipes sortPlanes recipes planes

end Catalog

/-! ## What is accepted -/

/-- The parent that a recipe names, of a lesser scope. -/
def Parent (recipes : List Recipe) (recipe parent : Recipe) : Prop :=
  parent ∈ recipes ∧ parent.recipeId = recipe.parentRecipeId ∧ parent.scopeKind < recipe.scopeKind

/-- The conditions on a catalog, in no order. -/
structure Valid (blake3 : Blake3) (recipes : List Recipe) (planes : List Plane) :
    Prop where
  identified : ∀ recipe ∈ recipes, identify blake3 recipe = .ok recipe.recipeId
  distinct : (recipes.map recipeKey).Nodup
  law : ∀ recipe ∈ recipes, ∀ other ∈ recipes,
    recipe.semanticSegmentationLawId = other.semanticSegmentationLawId
  parent : ∀ recipe ∈ recipes, recipe.scopeKind ≠ scopeSource →
    ∃ parent, Parent recipes recipe parent ∧ parent.sourceProfileId = recipe.sourceProfileId
  siblings : recipes.Pairwise fun recipe other => clash recipe other = false
  source : ∃ recipe ∈ recipes, recipe.scopeKind = scopeSource
  planesIdentified : ∀ plane ∈ planes, planeIdentify blake3 plane = .ok plane.planeId
  planesDistinct : (planes.map planeKey).Nodup
  planesOwned : ∀ plane ∈ planes, ∃ recipe ∈ recipes, recipe.recipeId = plane.recipeId

/-! ### The loops -/

section Loops

theorem forEach_ok {α : Type} {check : α → ℕ → Except Failure Unit} : ∀ {l : List α} {index : ℕ},
    forEach check l index = .ok () ↔ ∀ entry ∈ l.zipIdx index, check entry.1 entry.2 = .ok () := by
  intro l
  induction l with
  | nil => simp [forEach]
  | cons a l ih =>
    intro index
    rw [forEach, List.zipIdx_cons, List.forall_mem_cons]
    cases check a index <;> simp [ih]

theorem forEach_ok_of {α : Type} {check : α → ℕ → Except Failure Unit} {P : α → Prop} {l : List α}
    {index : ℕ} (h : ∀ a i, check a i = .ok () ↔ P a) : forEach check l index = .ok () ↔ ∀ a ∈ l, P a := by
  induction l generalizing index with
  | nil => simp [forEach]
  | cons a l ih =>
    rw [forEach, List.forall_mem_cons, ← h a index]
    cases check a index <;> simp [ih]

variable {blake3 : Blake3} {search : Search}

theorem checkIdentity_ok {recipe : Recipe} {index : ℕ} : checkIdentity blake3 recipe index = .ok () ↔
    identify blake3 recipe = .ok recipe.recipeId := by
  rw [checkIdentity]
  cases identify blake3 recipe <;> simp [fail]

theorem checkPlaneIdentity_ok {plane : Plane} {index : ℕ} :
    checkPlaneIdentity blake3 plane index = .ok () ↔ planeIdentify blake3 plane = .ok plane.planeId := by
  rw [checkPlaneIdentity]
  cases planeIdentify blake3 plane <;> simp [fail]

theorem checkIdentities_ok {recipes : List Recipe} : forEach (checkIdentity blake3) recipes 0 = .ok () ↔
    ∀ recipe ∈ recipes, identify blake3 recipe = .ok recipe.recipeId :=
  forEach_ok_of fun _ _ => checkIdentity_ok

theorem checkPlaneIdentities_ok {planes : List Plane} :
    forEach (checkPlaneIdentity blake3) planes 0 = .ok () ↔
      ∀ plane ∈ planes, planeIdentify blake3 plane = .ok plane.planeId :=
  forEach_ok_of fun _ _ => checkPlaneIdentity_ok

theorem checkSiblings_ok : ∀ {recipes : List Recipe} {index : ℕ}, checkSiblings recipes index = .ok () ↔
    recipes.Pairwise fun recipe other => clash recipe other = false := by
  intro recipes
  induction recipes with
  | nil => simp [checkSiblings]
  | cons recipe recipes ih =>
    intro index
    have hrow := @forEach_ok_of Recipe (fun other i => if clash recipe other then
      fail .siblingDuplicate i 0 else .ok ()) (clash recipe · = false) recipes (index + 1)
      fun other i => by cases clash recipe other <;> simp [fail]
    rw [checkSiblings, List.pairwise_cons, ← hrow]
    cases forEach (fun other i => if clash recipe other then fail .siblingDuplicate i 0 else .ok ())
      recipes (index + 1) <;> simp [ih]

theorem previous_iff {α κ : Type} [LinearOrder κ] {key : α → κ} : ∀ {l : List α},
    (∀ entry ∈ l.zipIdx, ¬(entry.2 ≠ 0 ∧ l[entry.2 - 1]?.any fun a => decide (key a = key entry.1))) ↔
      repeats key l = false := by
  intro l
  have hindex : (∀ entry ∈ l.zipIdx, ¬(entry.2 ≠ 0 ∧
      l[entry.2 - 1]?.any fun a => decide (key a = key entry.1))) ↔
      ∀ i (h : i + 1 < l.length), key l[i] ≠ key l[i + 1] := by
    constructor
    · intro h i hi heq
      refine h (l[i + 1], i + 1) (List.mem_zipIdx_iff_getElem?.2 (by simp [hi])) ⟨by simp, ?_⟩
      simp [List.getElem?_eq_getElem (show i < l.length by omega), heq]
    · rintro h ⟨a, i⟩ hentry ⟨hne, hany⟩
      obtain ⟨i, rfl⟩ := Nat.exists_eq_succ_of_ne_zero hne
      obtain ⟨hi, heq⟩ := List.getElem?_eq_some_iff.1 (List.mem_zipIdx_iff_getElem?.1 hentry)
      simp only at hi heq
      refine h i hi ?_
      simpa [List.getElem?_eq_getElem (show i < l.length by omega), heq] using hany
  rw [hindex]
  clear hindex
  induction l with
  | nil => simp [repeats]
  | cons first l ih =>
    cases l with
    | nil => simp [repeats]
    | cons second l =>
      rw [repeats, Bool.or_eq_false_iff, decide_eq_false_iff_not]
      refine Iff.trans ?_ (and_congr_right fun _ => ih)
      constructor
      · intro h
        exact ⟨h 0 (by simp), fun i hi => h (i + 1) (by simpa using hi)⟩
      · rintro ⟨hfirst, h⟩ i hi
        cases i with
        | zero => simpa using hfirst
        | succ i => exact h i (by simpa using hi)

theorem forEach_sorted {α κ : Type} [LinearOrder κ] {key : α → κ} {check : α → ℕ → Except Failure Unit}
    {P : α → Prop} {l : List α} (hsorted : l.Pairwise fun a b => key a ≤ key b)
    (h : ∀ a index, check a index = .ok () ↔
      ¬(index ≠ 0 ∧ l[index - 1]?.any fun other => decide (key other = key a)) ∧ P a) :
    forEach check l 0 = .ok () ↔ (l.map key).Nodup ∧ ∀ a ∈ l, P a := by
  have hnodup : (l.map key).Nodup ↔ repeats key l = false :=
    ⟨repeats_of_nodup, fun h => nodup_of_increasing (increasing_of_repeats hsorted h)⟩
  have hentries : (∀ entry ∈ l.zipIdx, P entry.1) ↔ ∀ a ∈ l, P a := by
    constructor
    · intro hall a ha
      obtain ⟨i, hi, rfl⟩ := List.getElem_of_mem ha
      exact hall (l[i], i) (List.mem_zipIdx_iff_getElem?.2 (by simp [hi]))
    · exact fun hall entry hentry => hall _ (List.fst_mem_of_mem_zipIdx hentry)
  rw [forEach_ok]
  simp only [h, forall_and]
  rw [previous_iff, ← hnodup, hentries]

end Loops

/-! ### Acceptance -/

section Acceptance

variable {blake3 : Blake3} {search : Search} {sortRecipes : Sorting recipeKey}
  {sortPlanes : Sorting planeKey} {recipes recipes' : List Recipe} {planes planes' : List Plane}
  {receipt : Receipt}

variable {recipe : Recipe}

theorem recipeKey_eq {other : Recipe} :
    recipeKey recipe = recipeKey other ↔ recipe.recipeId = other.recipeId := BitVec.toNat_inj

theorem planeKey_eq {plane other : Plane} :
    planeKey plane = planeKey other ↔ plane.planeId = other.planeId :=
  BitVec.toNat_inj

variable {ordered : List Recipe}

theorem Search.find_eq_some (hsorted : ordered.Pairwise fun a b => recipeKey a < recipeKey b)
    {recipeId : Digest256} :
    search.find ordered recipeId = some recipe ↔ recipe ∈ ordered ∧ recipe.recipeId = recipeId := by
  refine ⟨search.found, fun ⟨hmem, hid⟩ => ?_⟩
  cases hfind : search.find ordered recipeId with
  | none => exact absurd hid (search.complete (hsorted.imp le_of_lt) hfind recipe hmem)
  | some other =>
    obtain ⟨hother, hid'⟩ := search.found hfind
    have hnodup := nodup_of_increasing hsorted
    rw [List.inj_on_of_nodup_map hnodup hother hmem (recipeKey_eq.2 (hid'.trans hid.symm))]

theorem checkRecipe_ok {index : ℕ} : checkRecipe search ordered recipe index = .ok () ↔
      ¬(index ≠ 0 ∧ ordered[index - 1]?.any fun other => decide (recipeKey other = recipeKey recipe)) ∧
      ¬ordered.head?.any (fun first =>
        decide (first.semanticSegmentationLawId ≠ recipe.semanticSegmentationLawId)) ∧
      (recipe.scopeKind ≠ scopeSource → ∃ parent, search.find ordered recipe.parentRecipeId = some parent ∧
        parent.sourceProfileId = recipe.sourceProfileId ∧ parent.scopeKind < recipe.scopeKind) := by
  unfold checkRecipe
  simp only [recipeKey_eq]
  split_ifs with hduplicate hlaw hsource
  · exact ⟨nofun, fun h => absurd hduplicate h.1⟩
  · exact ⟨nofun, fun h => absurd hlaw h.2.1⟩
  · exact ⟨fun _ => ⟨hduplicate, hlaw, fun h => absurd hsource h⟩, fun _ => rfl⟩
  · refine Iff.trans ?_ ((and_iff_right hduplicate).trans ((and_iff_right hlaw).trans
      (imp_iff_right hsource))).symm
    cases search.find ordered recipe.parentRecipeId with
    | none => simp [fail]
    | some parent =>
      simp only [Option.some.injEq, exists_eq_left', ← UInt32.not_le]
      split_ifs with h
      · exact ⟨nofun, fun h' => (h.elim (fun hne => hne h'.1) h'.2).elim⟩
      · rw [not_or, not_not] at h
        exact ⟨fun _ => h, fun _ => rfl⟩

theorem checkRecipes_ok (hsorted : ordered.Pairwise fun a b => recipeKey a ≤ recipeKey b) :
    forEach (checkRecipe search ordered) ordered 0 = .ok () ↔ (ordered.map recipeKey).Nodup ∧
      (∀ recipe ∈ ordered, ∀ other ∈ ordered,
        recipe.semanticSegmentationLawId = other.semanticSegmentationLawId) ∧
      ∀ recipe ∈ ordered, recipe.scopeKind ≠ scopeSource →
        ∃ parent, Parent ordered recipe parent ∧ parent.sourceProfileId = recipe.sourceProfileId := by
  have hlaw : (∀ recipe ∈ ordered, ¬ordered.head?.any
      (fun first => decide (first.semanticSegmentationLawId ≠ recipe.semanticSegmentationLawId))) ↔
      ∀ recipe ∈ ordered, ∀ other ∈ ordered,
        recipe.semanticSegmentationLawId = other.semanticSegmentationLawId := by
    cases ordered with
    | nil => simp
    | cons first rest =>
      simp only [List.head?_cons, Option.any_some, decide_eq_true_eq, ne_eq, not_not]
      exact ⟨fun h recipe hr other ho => (h recipe hr).symm.trans (h other ho),
        fun h recipe hr => h first List.mem_cons_self recipe hr⟩
  rw [forEach_sorted hsorted fun _ _ => checkRecipe_ok, forall₂_and, hlaw]
  refine and_congr_right fun hdistinct => and_congr_right fun _ => ?_
  simp only [search.find_eq_some (increasing_of_repeats hsorted (repeats_of_nodup hdistinct)), Parent,
    and_assoc, and_comm, and_left_comm]

theorem checkPlanes_ok (hordered : ordered.Pairwise fun a b => recipeKey a < recipeKey b)
    {orderedPlanes : List Plane} (hsorted : orderedPlanes.Pairwise fun a b => planeKey a ≤ planeKey b) :
    forEach (checkPlane search ordered orderedPlanes) orderedPlanes 0 = .ok () ↔
      (orderedPlanes.map planeKey).Nodup ∧
      ∀ plane ∈ orderedPlanes, ∃ recipe ∈ ordered, recipe.recipeId = plane.recipeId := by
  refine forEach_sorted hsorted fun plane index => ?_
  unfold checkPlane
  simp only [planeKey_eq, ← search.find_eq_some hordered, ← Option.isSome_iff_exists]
  split_ifs with hduplicate hmissing
  · exact ⟨nofun, fun h => absurd hduplicate h.1⟩
  · exact ⟨nofun, fun h => by simp [Option.isNone_iff_eq_none.1 hmissing] at h⟩
  · exact ⟨fun _ => ⟨hduplicate, by simpa [Option.isSome_iff_ne_none] using hmissing⟩, fun _ => rfl⟩

theorem clash_comm {other : Recipe} : clash recipe other = clash other recipe := by
  rw [clash, clash, decide_eq_decide, eq_comm, eq_comm (a := recipe.parentRecipeId),
    eq_comm (a := recipe.sourceProfileId)]

theorem Valid.perm (hrecipes : recipes.Perm recipes') (hplanes : planes.Perm planes')
    (h : Valid blake3 recipes planes) : Valid blake3 recipes' planes' where
  identified recipe hr := h.identified recipe (hrecipes.mem_iff.2 hr)
  distinct := (hrecipes.map recipeKey).nodup_iff.1 h.distinct
  law recipe hr other ho := h.law recipe (hrecipes.mem_iff.2 hr) other (hrecipes.mem_iff.2 ho)
  parent recipe hr hscope := by
    obtain ⟨parent, ⟨hmem, hparent⟩, hprofile⟩ := h.parent recipe (hrecipes.mem_iff.2 hr) hscope
    exact ⟨parent, ⟨hrecipes.mem_iff.1 hmem, hparent⟩, hprofile⟩
  siblings := hrecipes.pairwise h.siblings fun hclash => clash_comm.trans hclash
  source := by
    obtain ⟨recipe, hr, hscope⟩ := h.source
    exact ⟨recipe, hrecipes.mem_iff.1 hr, hscope⟩
  planesIdentified plane hp := h.planesIdentified plane (hplanes.mem_iff.2 hp)
  planesDistinct := (hplanes.map planeKey).nodup_iff.1 h.planesDistinct
  planesOwned plane hp := by
    obtain ⟨recipe, hr, hid⟩ := h.planesOwned plane (hplanes.mem_iff.2 hp)
    exact ⟨recipe, hrecipes.mem_iff.1 hr, hid⟩

theorem ok_bind_iff {β : Type} {first : Except Failure Unit} {next : Except Failure β} {b : β} :
    (first >>= fun _ => next) = .ok b ↔ first = .ok () ∧ next = .ok b := by
  cases first <;> simp [bind, Except.bind]

/-- **Compilation** accepts the valid catalogs, and its receipt is that of the ordered sets. -/
theorem compileCatalog_ok :
    compileCatalog blake3 search sortRecipes sortPlanes recipes planes = .ok receipt ↔ Valid blake3 recipes planes ∧
      receipt = receiptOf blake3 (sortRecipes.sort recipes) (sortPlanes.sort planes) := by
  have hperm := sortRecipes.perm recipes
  have hpermPlanes := sortPlanes.perm planes
  have hvalid : Valid blake3 recipes planes ↔
      Valid blake3 (sortRecipes.sort recipes) (sortPlanes.sort planes) :=
    ⟨Valid.perm hperm.symm hpermPlanes.symm, Valid.perm hperm hpermPlanes⟩
  unfold compileCatalog
  split_ifs with hempty
  · refine ⟨nofun, fun h => ?_⟩
    obtain ⟨recipe, hr, -⟩ := h.1.source
    simp [hempty] at hr
  simp only [ok_bind_iff, checkIdentities_ok,
    checkRecipes_ok (sortRecipes.sorted recipes), checkSiblings_ok]
  rw [hvalid]
  constructor
  · rintro ⟨hidentified, ⟨hdistinct, hlaw, hparent⟩, hsiblings, h⟩
    split_ifs at h with hsource
    · exact absurd h nofun
    have hincreasing := increasing_of_repeats (sortRecipes.sorted recipes) (repeats_of_nodup hdistinct)
    simp only [ok_bind_iff, checkPlaneIdentities_ok,
      checkPlanes_ok hincreasing (sortPlanes.sorted planes)] at h
    obtain ⟨hplanes, ⟨hplanesDistinct, howned⟩, hreceipt⟩ := h
    obtain ⟨recipe, hr, hscope⟩ := List.countP_pos_iff.1 (Nat.pos_of_ne_zero hsource)
    exact ⟨⟨fun recipe hr => hidentified recipe (hperm.mem_iff.1 hr), hdistinct, hlaw, hparent,
      hsiblings, ⟨recipe, hr, of_decide_eq_true hscope⟩, fun plane hp => hplanes plane (hpermPlanes.mem_iff.1 hp),
      hplanesDistinct, howned⟩, (Except.ok.inj hreceipt).symm⟩
  · rintro ⟨h, rfl⟩
    obtain ⟨source, hs, hscope⟩ := h.source
    have hincreasing := increasing_of_repeats (sortRecipes.sorted recipes) (repeats_of_nodup h.distinct)
    refine ⟨fun recipe hr => h.identified recipe (hperm.mem_iff.2 hr), ⟨h.distinct, h.law, h.parent⟩,
      h.siblings, ?_⟩
    rw [if_neg (List.countP_pos_iff.2 ⟨source, hs, decide_eq_true hscope⟩).ne']
    simp only [ok_bind_iff, checkPlaneIdentities_ok, checkPlanes_ok hincreasing (sortPlanes.sorted planes)]
    exact ⟨fun plane hp => h.planesIdentified plane (hpermPlanes.mem_iff.2 hp),
      ⟨h.planesDistinct, h.planesOwned⟩, rfl⟩

theorem compileCatalog_perm (hrecipes : recipes.Perm recipes') (hplanes : planes.Perm planes') :
    compileCatalog blake3 search sortRecipes sortPlanes recipes planes = .ok receipt ↔
      compileCatalog blake3 search sortRecipes sortPlanes recipes' planes' = .ok receipt := by
  have hvalid : Valid blake3 recipes planes ↔ Valid blake3 recipes' planes' :=
    ⟨Valid.perm hrecipes hplanes, Valid.perm hrecipes.symm hplanes.symm⟩
  rw [compileCatalog_ok, compileCatalog_ok, ← hvalid]
  refine and_congr_right fun h => ?_
  rw [sortRecipes.sort_congr sortRecipes hrecipes h.distinct,
    sortPlanes.sort_congr sortPlanes hplanes h.planesDistinct]

/-! ### The hierarchy -/

theorem Valid.ancestry (h : Valid blake3 recipes planes) : ∀ {recipe}, recipe ∈ recipes →
    ∃ source ∈ recipes, source.scopeKind = scopeSource ∧ source.sourceProfileId = recipe.sourceProfileId ∧
      Relation.ReflTransGen (Parent recipes) recipe source := by
  -- the scope kind strictly decreases along the parents
  intro recipe
  induction hn : recipe.scopeKind.toNat using Nat.strong_induction_on generalizing recipe with
  | _ n ih =>
    intro hr
    by_cases hscope : recipe.scopeKind = scopeSource
    · exact ⟨recipe, hr, hscope, rfl, .refl⟩
    obtain ⟨parent, hparent, hprofile⟩ := h.parent recipe hr hscope
    obtain ⟨source, hs, hsource, hsame, hpath⟩ :=
      ih _ (hn ▸ UInt32.lt_iff_toNat_lt.1 hparent.2.2) rfl hparent.1
    exact ⟨source, hs, hsource, hsame.trans hprofile, .head hparent hpath⟩

theorem Valid.siblings_distinct (h : Valid blake3 recipes planes) :
    recipes.Pairwise fun recipe other => recipe.scopeKind ≠ scopeSource → other.scopeKind ≠ scopeSource →
      recipe.parentRecipeId = other.parentRecipeId → recipe.siblingOrdinal ≠ other.siblingOrdinal := by
  refine h.siblings.imp_of_mem fun {recipe other} hr ho hclash hscope hscope' hsame hordinal => ?_
  obtain ⟨parent, hparent, hprofile⟩ := h.parent recipe hr hscope
  obtain ⟨parent', hparent', hprofile'⟩ := h.parent other ho hscope'
  have heq : parent = parent' := List.inj_on_of_nodup_map h.distinct hparent.1 hparent'.1
    (recipeKey_eq.2 (hparent.2.1.trans (hsame.trans hparent'.2.1.symm)))
  subst heq
  simp [clash, hordinal, hsame, hprofile.symm.trans hprofile'] at hclash

/-! ### Items -/

def recipeItem (recipe : Recipe) : Item := ⟨recipe, {}, itemRecipe, 0⟩

def planeItem (plane : Plane) : Item := ⟨{}, plane, itemPerfcachePlane, 0⟩

theorem splitItems_ok : ∀ {items : List Item} {index : ℕ} {split : List Recipe × List Plane},
    (∀ item ∈ items, (∃ recipe, item = recipeItem recipe) ∨ ∃ plane, item = planeItem plane) →
    ∃ recipes planes, splitItems items index split = .ok (split.1 ++ recipes, split.2 ++ planes) ∧
      items.Perm (recipes.map recipeItem ++ planes.map planeItem) := by
  intro items
  induction items with
  | nil => exact fun _ => ⟨[], [], by simp [splitItems], .refl _⟩
  | cons item items ih =>
    intro index split h
    obtain ⟨hitem, htail⟩ := List.forall_mem_cons.1 h
    rcases hitem with ⟨recipe, rfl⟩ | ⟨plane, rfl⟩
    · obtain ⟨recipes, planes, hsplit, hperm⟩ := @ih (index + 1)
        (split.1 ++ [recipe], split.2) htail
      exact ⟨recipe :: recipes, planes, by simpa [splitItems, recipeItem] using hsplit, hperm.cons _⟩
    · obtain ⟨recipes, planes, hsplit, hperm⟩ := @ih (index + 1)
        (split.1, split.2 ++ [plane]) htail
      refine ⟨recipes, plane :: planes, ?_, (hperm.cons _).trans List.perm_middle.symm⟩
      simpa [splitItems, planeItem, itemRecipe, itemPerfcachePlane] using hsplit

theorem recipes_perm {recipes recipes' : List Recipe} {planes planes' : List Plane}
    (h : (recipes.map recipeItem ++ planes.map planeItem).Perm
      (recipes'.map recipeItem ++ planes'.map planeItem)) :
    recipes.Perm recipes' ∧ planes.Perm planes' := by
  let recipeOf : Item → Option Recipe := fun item =>
    if item.itemKind = itemRecipe then some item.recipe else none
  let planeOf : Item → Option Plane := fun item =>
    if item.itemKind = itemRecipe then none else some item.perfcachePlane
  have hr := h.filterMap recipeOf
  have hp := h.filterMap planeOf
  simp [recipeOf, planeOf, List.filterMap_append, List.filterMap_map, Function.comp_def, recipeItem,
    planeItem, itemRecipe, itemPerfcachePlane] at hr hp
  exact ⟨hr, hp⟩

theorem compileCatalogItems_ok {items : List Item}
    (h : items.Perm (recipes.map recipeItem ++ planes.map planeItem)) :
    compileCatalogItems blake3 search sortRecipes sortPlanes items = .ok receipt ↔
      compileCatalog blake3 search sortRecipes sortPlanes recipes planes = .ok receipt := by
  have hitems : ∀ item ∈ items,
      (∃ recipe, item = recipeItem recipe) ∨ ∃ plane, item = planeItem plane := by
    intro item hitem
    rcases List.mem_append.1 (h.mem_iff.1 hitem) with hmem | hmem
    · exact .inl ((List.mem_map.1 hmem).imp fun _ h => h.2.symm)
    · exact .inr ((List.mem_map.1 hmem).imp fun _ h => h.2.symm)
  obtain ⟨recipes', planes', hsplit, hperm⟩ := @splitItems_ok items 0 ([], []) hitems
  obtain ⟨hrecipes, hplanes⟩ := recipes_perm (hperm.symm.trans h)
  unfold compileCatalogItems
  split_ifs with hempty
  · obtain ⟨rfl, rfl⟩ : recipes = [] ∧ planes = [] := by simpa [hempty] using h.symm
    simp [compileCatalog, fail]
  · rw [hsplit]
    exact compileCatalog_perm hrecipes hplanes

/-- **Catalogs**: in an accepted one the parents of a recipe lead to a source, ids and the places of
siblings are distinct, and planes have their recipes; it is a property of the sets, also as items. -/
theorem catalog_valid (blake3 : Blake3) (search : Search)
    (sortRecipes : Sorting recipeKey) (sortPlanes : Sorting planeKey) (recipes : List Recipe) (planes : List Plane) :
    (∀ receipt, compileCatalog blake3 search sortRecipes sortPlanes recipes planes = .ok receipt →
      (∀ recipe ∈ recipes, ∃ source ∈ recipes, source.scopeKind = scopeSource ∧
        source.sourceProfileId = recipe.sourceProfileId ∧
        Relation.ReflTransGen (Parent recipes) recipe source) ∧
      (recipes.map (·.recipeId)).Nodup ∧ (planes.map (·.planeId)).Nodup ∧
      (recipes.Pairwise fun recipe other => recipe.scopeKind ≠ scopeSource →
        other.scopeKind ≠ scopeSource → recipe.parentRecipeId = other.parentRecipeId →
        recipe.siblingOrdinal ≠ other.siblingOrdinal) ∧
      ∀ plane ∈ planes, ∃ recipe ∈ recipes, recipe.recipeId = plane.recipeId) ∧
    (∀ recipes' planes' receipt, recipes.Perm recipes' → planes.Perm planes' →
      (compileCatalog blake3 search sortRecipes sortPlanes recipes planes = .ok receipt ↔
        compileCatalog blake3 search sortRecipes sortPlanes recipes' planes' = .ok receipt)) ∧
    ∀ items receipt, items.Perm (recipes.map recipeItem ++ planes.map planeItem) →
      (compileCatalogItems blake3 search sortRecipes sortPlanes items = .ok receipt ↔
        compileCatalog blake3 search sortRecipes sortPlanes recipes planes = .ok receipt) := by
  refine ⟨fun receipt h => ?_, fun _ _ _ => compileCatalog_perm, fun _ _ => compileCatalogItems_ok⟩
  obtain ⟨hvalid, -⟩ := compileCatalog_ok.1 h
  have hids : (recipes.map (·.recipeId)).Nodup :=
    List.Nodup.of_map BitVec.toNat (by rw [List.map_map]; exact hvalid.distinct)
  have hplaneIds : (planes.map (·.planeId)).Nodup :=
    List.Nodup.of_map BitVec.toNat (by rw [List.map_map]; exact hvalid.planesDistinct)
  exact ⟨fun recipe => hvalid.ancestry, hids, hplaneIds, hvalid.siblings_distinct, hvalid.planesOwned⟩

end Acceptance

/-- A recipe, or a plane, under the identity that its fields hash to. -/
def Recipe.identified (recipe : Recipe) : Recipe :=
  { recipe with recipeId := (identify digits recipe).toOption.getD 0 }

def Plane.identified (plane : Plane) : Plane :=
  { plane with planeId := (planeIdentify digits plane).toOption.getD 0 }

def sourceRecipe : Recipe :=
  Recipe.identified ⟨0, 0, 1, 1, 1, 1, 1, 1, 1, 1, 1, 1, 1, 1, 1, 1, 0⟩

def childRecipe : Recipe :=
  Recipe.identified ⟨0, sourceRecipe.recipeId, 1, 1, 1, 1, 1, 1, 1, 1, 1, 1, 1, 2, 1, 1, 0⟩

def childPlane : Plane :=
  Plane.identified ⟨0, childRecipe.recipeId, 1, 1, 1, 1, 1, 1, 1, 1, 0⟩

/-- A source, a child and a plane of the child are accepted in three orders with one receipt. -/
theorem catalog_valid_child :
    ∃ receipt, compileCatalog digits .first (.insertion _) (.insertion _) [childRecipe, sourceRecipe]
        [childPlane] = .ok receipt ∧
      compileCatalog digits .first (.insertion _) (.insertion _) [sourceRecipe, childRecipe]
        [childPlane] = .ok receipt ∧
      compileCatalogItems digits .first (.insertion _) (.insertion _)
        [planeItem childPlane, recipeItem childRecipe, recipeItem sourceRecipe] = .ok receipt ∧
      ∃ source ∈ [childRecipe, sourceRecipe], source.scopeKind = scopeSource ∧
        source.sourceProfileId = childRecipe.sourceProfileId ∧
        Relation.ReflTransGen (Parent [childRecipe, sourceRecipe]) childRecipe source := by
  obtain ⟨hvalid, horder, hitems⟩ := catalog_valid digits .first (.insertion _) (.insertion _)
    [childRecipe, sourceRecipe] [childPlane]
  have hsome : (compileCatalog digits .first (.insertion _) (.insertion _)
      [childRecipe, sourceRecipe] [childPlane]).toOption.isSome = true := by decide +kernel
  cases h : compileCatalog digits .first (.insertion _) (.insertion _) [childRecipe, sourceRecipe]
      [childPlane] with
  | error failure =>
    rw [h] at hsome
    cases hsome
  | ok receipt =>
    exact ⟨receipt, rfl, (horder _ _ _ (.swap _ _ _) (.refl _)).1 h,
      (hitems _ _ (@List.perm_append_comm _ [planeItem childPlane] _)).2 h,
      (hvalid receipt h).1 childRecipe List.mem_cons_self⟩

end Laplace.Stock
