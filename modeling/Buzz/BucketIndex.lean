import Buzz.BucketKeys
import Buzz.EntryMap

/-!
# The storage sweep

A bucket is listed page by page, and the running totals of the listing are joined when it ends.
Every sum but one is over distinct objects and stays below the bytes of the bucket. The logical
bytes bill an object once for every community it is bound in, and are the one sum that can leave
64 bits.
-/

namespace Buzz.Bucket

section Code

/-- The sum of two numbers of 64 bits, or none where the build panics on an overflow. -/
def addU64 (overflowChecks : Bool) (a b : ℕ) : Option ℕ :=
  if a + b < 2 ^ 64 then some (a + b)
  else if overflowChecks then none else some ((a + b) % 2 ^ 64)

def sumU64 (overflowChecks : Bool) (values : List ℕ) : Option ℕ :=
  values.foldlM (addU64 overflowChecks) 0

/-- The order in which the entries of a hash map come. -/
structure HashOrder where
  order : ∀ {α : Type}, List α → List α
  perm : ∀ {α : Type} (entries : List α), (order entries).Perm entries

structure CommunityStorage where
  bytes : ℕ
  objects : ℕ
  deriving DecidableEq, Repr

structure BucketSnapshot where
  physicalBytes : ℕ
  physicalObjects : ℕ
  logicalBytes : ℕ
  logicalObjects : ℕ
  perCommunity : EntryMap Uuid CommunityStorage
  orphanBlobBytes : ℕ
  orphanBlobCount : ℕ
  orphanSidecarCount : ℕ
  multiVariantShas : ℕ
  multiVariantBytes : ℕ
  unknownKeyBytes : ℕ
  unknownKeyObjects : ℕ

structure BucketAggregate where
  blobVariantBytes : EntryMap String (List ℕ)
  thumbBytes : EntryMap String ℕ
  sidecarBindings : EntryMap (Uuid × String) ℕ
  physicalBytes : ℕ
  physicalObjects : ℕ
  unknownBytes : ℕ
  unknownObjects : ℕ

def BucketAggregate.default : BucketAggregate :=
  ⟨.empty, .empty, .empty, 0, 0, 0, 0⟩

def BucketAggregate.fold (overflowChecks : Bool) (aggregate : BucketAggregate) (key : String)
    (size : ℕ) : Option BucketAggregate := do
  let physicalBytes ← addU64 overflowChecks aggregate.physicalBytes size
  let aggregate := { aggregate with
    physicalObjects := aggregate.physicalObjects + 1
    physicalBytes := physicalBytes }
  match classifyKey key with
  | .thumb sha256 =>
      some { aggregate with thumbBytes := aggregate.thumbBytes.set sha256 size }
  | .blob sha256 _ =>
      let variants := (aggregate.blobVariantBytes.get? sha256).getD []
      some { aggregate with
        blobVariantBytes := aggregate.blobVariantBytes.set sha256 (variants ++ [size]) }
  | .sidecar community sha256 =>
      some { aggregate with
        sidecarBindings := aggregate.sidecarBindings.set (community, sha256) size }
  | .auxiliary _ _ _ => some aggregate
  | .unknown => do
      let unknownBytes ← addU64 overflowChecks aggregate.unknownBytes size
      some { aggregate with
        unknownObjects := aggregate.unknownObjects + 1
        unknownBytes := unknownBytes }

structure BlobCounts where
  multiVariantShas : ℕ
  multiVariantBytes : ℕ
  orphanBlobCount : ℕ
  orphanBlobBytes : ℕ

def countMultiVariant (overflowChecks : Bool) (variants : List ℕ) (variantBytes : ℕ)
    (counts : BlobCounts) : Option BlobCounts :=
  if variants.length > 1 then do
    let bytes ← addU64 overflowChecks counts.multiVariantBytes variantBytes
    some { counts with
      multiVariantShas := counts.multiVariantShas + 1
      multiVariantBytes := bytes }
  else some counts

def countOrphan (overflowChecks : Bool) (boundShas : List String) (sha256 : String)
    (variantBytes : ℕ) (counts : BlobCounts) : Option BlobCounts :=
  if sha256 ∉ boundShas then do
    let bytes ← addU64 overflowChecks counts.orphanBlobBytes variantBytes
    some { counts with
      orphanBlobCount := counts.orphanBlobCount + 1
      orphanBlobBytes := bytes }
  else some counts

/-- One round of the loop over the blobs. -/
def countBlob (overflowChecks : Bool) (boundShas : List String) (counts : BlobCounts)
    (blob : String × List ℕ) : Option BlobCounts := do
  let variantBytes ← sumU64 overflowChecks blob.2
  let counts ← countMultiVariant overflowChecks blob.2 variantBytes counts
  countOrphan overflowChecks boundShas blob.1 variantBytes counts

/-- One round of the loop over the bindings. -/
def billBinding (overflowChecks : Bool) (aggregate : BucketAggregate)
    (perCommunity : EntryMap Uuid CommunityStorage) (binding : Uuid × String) :
    Option (EntryMap Uuid CommunityStorage) := do
  let blobBytes ← sumU64 overflowChecks ((aggregate.blobVariantBytes.get? binding.2).getD [])
  let thumbBytes := (aggregate.thumbBytes.get? binding.2).getD 0
  let entry := (perCommunity.get? binding.1).getD ⟨0, 0⟩
  let billed ← addU64 overflowChecks blobBytes thumbBytes
  let bytes ← addU64 overflowChecks entry.bytes billed
  some (perCommunity.set binding.1 ⟨bytes, entry.objects + 1⟩)

def BucketAggregate.finish (overflowChecks : Bool) (hash : HashOrder)
    (aggregate : BucketAggregate) : Option BucketSnapshot := do
  let bindings := (hash.order aggregate.sidecarBindings.entries).map Prod.fst
  let boundShas := bindings.map Prod.snd
  let counts ← (hash.order aggregate.blobVariantBytes.entries).foldlM
    (countBlob overflowChecks boundShas) ⟨0, 0, 0, 0⟩
  let orphanSidecarCount :=
    (bindings.filter fun binding => aggregate.blobVariantBytes.get? binding.2 = none).length
  let perCommunity ← bindings.foldlM (billBinding overflowChecks aggregate) .empty
  let values := (hash.order perCommunity.entries).map Prod.snd
  let logicalBytes ← sumU64 overflowChecks (values.map CommunityStorage.bytes)
  let logicalObjects := (values.map CommunityStorage.objects).sum
  some {
    physicalBytes := aggregate.physicalBytes
    physicalObjects := aggregate.physicalObjects
    logicalBytes := logicalBytes
    logicalObjects := logicalObjects
    perCommunity := perCommunity
    orphanBlobBytes := counts.orphanBlobBytes
    orphanBlobCount := counts.orphanBlobCount
    orphanSidecarCount := orphanSidecarCount
    multiVariantShas := counts.multiVariantShas
    multiVariantBytes := counts.multiVariantBytes
    unknownKeyBytes := aggregate.unknownBytes
    unknownKeyObjects := aggregate.unknownObjects }

structure Page where
  objects : List (String × ℕ)
  nextContinuationToken : Option String
  isTruncated : Bool

inductive SweepError (ε : Type) where
  | capExceeded (seen cap : ℕ)
  | storage (error : ε)
  | malformedPage

inductive SweepOutcome (ε : Type) where
  | running
  | panicked
  | failed (error : SweepError ε)
  | done (snapshot : BucketSnapshot)

variable {ε : Type}

/-- The pages from the `n`-th on. What a call of the page source returns may depend on the calls
before it. -/
def foldPages (overflowChecks : Bool) (hash : HashOrder) (cap : ℕ)
    (fetchPage : ℕ → Option String → Except ε Page) :
    ℕ → ℕ → Option String → ℕ → BucketAggregate → SweepOutcome ε
  | 0, _, _, _, _ => .running
  | fuel + 1, n, continuationToken, seen, aggregate =>
      match fetchPage n continuationToken with
      | .error error => .failed (.storage error)
      | .ok page =>
          let seen := seen + page.objects.length
          if seen > cap then .failed (.capExceeded seen cap)
          else
            match page.objects.foldlM
                (fun held object => held.fold overflowChecks object.1 object.2) aggregate with
            | none => .panicked
            | some aggregate =>
                if page.isTruncated then
                  match page.nextContinuationToken with
                  | some token =>
                      foldPages overflowChecks hash cap fetchPage fuel (n + 1) (some token) seen
                        aggregate
                  | none => .failed .malformedPage
                else
                  match aggregate.finish overflowChecks hash with
                  | none => .panicked
                  | some snapshot => .done snapshot

def foldBucketListing (overflowChecks : Bool) (hash : HashOrder) (cap : ℕ)
    (fetchPage : ℕ → Option String → Except ε Page) (fuel : ℕ) : SweepOutcome ε :=
  foldPages overflowChecks hash cap fetchPage fuel 0 none 0 .default

end Code

section Survey

def KeyClass.blobSha? : KeyClass → Option String
  | .blob sha256 _ => some sha256
  | _ => none

def KeyClass.binding? : KeyClass → Option (Uuid × String)
  | .sidecar community sha256 => some (community, sha256)
  | _ => none

variable (objects : List (String × ℕ))

def bytesOf (kept : String → Bool) : ℕ :=
  ((objects.filter fun object => kept object.1).map Prod.snd).sum

/-- The sizes of the blobs of a digest. -/
def variants (sha256 : String) : List ℕ :=
  (objects.filter fun object => (classifyKey object.1).blobSha? = some sha256).map Prod.snd

def thumbBytes (sha256 : String) : ℕ :=
  bytesOf objects fun key => classifyKey key = .thumb sha256

/-- The digests that the bucket has a blob of. -/
def blobShas : List String :=
  (objects.filterMap fun object => (classifyKey object.1).blobSha?).dedup

/-- The digests bound in communities. -/
def bindings : List (Uuid × String) :=
  objects.filterMap fun object => (classifyKey object.1).binding?

def communities : List Uuid :=
  ((bindings objects).map Prod.fst).dedup

def boundShas (community : Uuid) : List String :=
  ((bindings objects).filter fun binding => binding.1 = community).map Prod.snd

/-- All blob variants of a digest and its thumb. -/
def billed (sha256 : String) : ℕ :=
  (variants objects sha256).sum + thumbBytes objects sha256

def storageOf (community : Uuid) : CommunityStorage where
  bytes := ((boundShas objects community).map (billed objects)).sum
  objects := (boundShas objects community).length

def logicalTotal : ℕ :=
  ((communities objects).map fun community => (storageOf objects community).bytes).sum

def multiVariants : List String :=
  (blobShas objects).filter fun sha256 => (variants objects sha256).length > 1

def orphanBlobs : List String :=
  (blobShas objects).filter fun sha256 => sha256 ∉ (bindings objects).map Prod.snd

def orphanSidecars : List (Uuid × String) :=
  (bindings objects).filter fun binding => binding.2 ∉ blobShas objects

/-- What a sweep of the objects is to report. -/
structure Surveyed (snapshot : BucketSnapshot) : Prop where
  physicalBytes : snapshot.physicalBytes = (objects.map Prod.snd).sum
  physicalObjects : snapshot.physicalObjects = objects.length
  perCommunity : snapshot.perCommunity.entries.Perm
    ((communities objects).map fun community => (community, storageOf objects community))
  logicalBytes : snapshot.logicalBytes = logicalTotal objects
  logicalObjects : snapshot.logicalObjects = (bindings objects).length
  orphanBlobBytes : snapshot.orphanBlobBytes =
    ((orphanBlobs objects).map fun sha256 => (variants objects sha256).sum).sum
  orphanBlobCount : snapshot.orphanBlobCount = (orphanBlobs objects).length
  orphanSidecarCount : snapshot.orphanSidecarCount = (orphanSidecars objects).length
  multiVariantShas : snapshot.multiVariantShas = (multiVariants objects).length
  multiVariantBytes : snapshot.multiVariantBytes =
    ((multiVariants objects).map fun sha256 => (variants objects sha256).sum).sum
  unknownKeyBytes : snapshot.unknownKeyBytes = bytesOf objects fun key =>
    classifyKey key = .unknown
  unknownKeyObjects : snapshot.unknownKeyObjects =
    (objects.filter fun object => classifyKey object.1 = .unknown).length

end Survey

section Sums

variable {overflowChecks : Bool} {a b c start total : ℕ} {values : List ℕ}

theorem addU64_of_lt (h : a + b < 2 ^ 64) : addU64 overflowChecks a b = some (a + b) :=
  if_pos h

theorem lt_of_addU64 (h : addU64 overflowChecks a b = some c) : c < 2 ^ 64 := by
  unfold addU64 at h
  split_ifs at h with hlt hchecks
  · exact Option.some.inj h ▸ hlt
  · exact Option.some.inj h ▸ Nat.mod_lt _ (by omega)

theorem foldlM_addU64_of_lt (values : List ℕ) : ∀ start, start + values.sum < 2 ^ 64 →
    values.foldlM (addU64 overflowChecks) start = some (start + values.sum) := by
  induction values with
  | nil => exact fun start _ => rfl
  | cons value rest ih =>
      intro start h
      rw [List.sum_cons] at h
      rw [List.foldlM_cons, addU64_of_lt (by omega), Option.bind_eq_bind, Option.bind_some,
        ih _ (by omega), List.sum_cons, Nat.add_assoc]

theorem sumU64_of_lt (h : values.sum < 2 ^ 64) :
    sumU64 overflowChecks values = some values.sum := by
  have hsum := @foldlM_addU64_of_lt overflowChecks values 0 (by omega)
  rwa [Nat.zero_add] at hsum

theorem lt_of_foldlM_addU64 (values : List ℕ) : ∀ start, start < 2 ^ 64 →
    values.foldlM (addU64 overflowChecks) start = some total → total < 2 ^ 64 := by
  induction values with
  | nil =>
      intro start hstart h
      exact Option.some.inj h ▸ hstart
  | cons value rest ih =>
      intro start hstart h
      rw [List.foldlM_cons] at h
      obtain ⟨next, hnext, hrest⟩ := Option.bind_eq_some_iff.mp h
      exact ih next (lt_of_addU64 hnext) hrest

theorem lt_of_sumU64 (h : sumU64 overflowChecks values = some total) : total < 2 ^ 64 :=
  lt_of_foldlM_addU64 values 0 (by omega) h

end Sums

section Owners

variable {α β : Type} {owns : β → α → Bool}

/-- What items of different owners hold is held by all items. -/
theorem sum_owned_le (hone : ∀ first second item, owns first item = true →
    owns second item = true → first = second) (size : α → ℕ) (owners : List β) :
    ∀ items : List α, owners.Nodup →
      (owners.map fun owner => ((items.filter (owns owner)).map size).sum).sum ≤
        (items.map size).sum := by
  induction owners with
  | nil => simp
  | cons first rest ih =>
      intro items hnodup
      obtain ⟨hfresh, hrest⟩ := List.nodup_cons.mp hnodup
      let others := items.filter fun item => !owns first item
      have hothers : ∀ owner ∈ rest, others.filter (owns owner) = items.filter (owns owner) := by
        intro owner howner
        rw [List.filter_filter]
        apply List.filter_congr
        intro item _
        cases hitem : owns owner item with
        | false => rfl
        | true =>
            have hnot : owns first item = false := by
              rw [Bool.eq_false_iff]
              intro hfirst
              exact hfresh (hone _ _ _ hitem hfirst ▸ howner)
            rw [hnot]
            rfl
      have hsplit : ((items.filter (owns first)).map size).sum + (others.map size).sum =
          (items.map size).sum := by
        rw [← List.sum_append, ← List.map_append]
        exact ((List.filter_append_perm _ items).map size).sum_eq
      have hle := ih others hrest
      rw [List.map_congr_left fun owner howner => by rw [hothers owner howner]] at hle
      rw [List.map_cons, List.sum_cons]
      omega

end Owners

section Fold

variable {overflowChecks : Bool} {objects : List (String × ℕ)} {aggregate : BucketAggregate}
  {key : String} {size : ℕ}

@[simp]
theorem bytesOf_append_singleton (kept : String → Bool) :
    bytesOf (objects ++ [(key, size)]) kept =
      bytesOf objects kept + if kept key then size else 0 := by
  unfold bytesOf
  by_cases hkept : kept key = true
  · simp [hkept]
  · simp [hkept]

@[simp]
theorem variants_append_singleton (sha256 : String) :
    variants (objects ++ [(key, size)]) sha256 =
      variants objects sha256 ++
        if (classifyKey key).blobSha? = some sha256 then [size] else [] := by
  unfold variants
  by_cases hblob : (classifyKey key).blobSha? = some sha256
  · simp [hblob]
  · simp [hblob]

@[simp]
theorem thumbBytes_append_singleton (sha256 : String) :
    thumbBytes (objects ++ [(key, size)]) sha256 =
      thumbBytes objects sha256 + if classifyKey key = .thumb sha256 then size else 0 := by
  simp [thumbBytes]

@[simp]
theorem bindings_append_singleton : bindings (objects ++ [(key, size)]) =
    bindings objects ++ (classifyKey key).binding?.toList := by
  unfold bindings
  cases hbinding : (classifyKey key).binding? with
  | none | some binding => simp [hbinding]

theorem mem_blobShas {sha256 : String} :
    sha256 ∈ blobShas objects ↔
      ∃ object ∈ objects, (classifyKey object.1).blobSha? = some sha256 := by
  rw [blobShas, List.mem_dedup, List.mem_filterMap]

theorem mem_blobShas_append {sha256 : String} :
    sha256 ∈ blobShas (objects ++ [(key, size)]) ↔
      sha256 ∈ blobShas objects ∨ (classifyKey key).blobSha? = some sha256 := by
  simp [mem_blobShas, List.mem_append, or_and_right, exists_or]

/-- No object of the class has been listed before its only key is. -/
theorem thumbBytes_of_fresh {sha256 : String} (hfresh : key ∉ objects.map Prod.fst)
    (hclass : classifyKey key = .thumb sha256) : thumbBytes objects sha256 = 0 := by
  have hnone : (objects.filter fun object => classifyKey object.1 = .thumb sha256) = [] := by
    rw [List.filter_eq_nil_iff]
    intro object hobject hthumb
    have hkey := key_eq_of_class hclass (of_decide_eq_true hthumb) (by simp)
    exact hfresh (hkey ▸ List.mem_map_of_mem hobject)
  unfold thumbBytes bytesOf
  rw [hnone]
  rfl

theorem binding_of_fresh {community : Uuid} {sha256 : String} (hfresh : key ∉ objects.map Prod.fst)
    (hclass : classifyKey key = .sidecar community sha256) :
    (community, sha256) ∉ bindings objects := by
  intro hmem
  obtain ⟨object, hobject, hbinding⟩ := List.mem_filterMap.mp hmem
  have hother : classifyKey object.1 = .sidecar community sha256 := by
    revert hbinding
    cases classifyKey object.1 <;> simp [KeyClass.binding?]
  have hkey := key_eq_of_class hclass hother (by simp)
  exact hfresh (hkey ▸ List.mem_map_of_mem hobject)

theorem bytesOf_le (kept : String → Bool) : bytesOf objects kept ≤ (objects.map Prod.snd).sum :=
  (List.filter_sublist.map Prod.snd).sum_le_sum fun _ _ => Nat.zero_le _

/-- The totals of the objects listed so far. -/
structure Aggregated (objects : List (String × ℕ)) (aggregate : BucketAggregate) : Prop where
  variants : ∀ sha256,
    (aggregate.blobVariantBytes.get? sha256).getD [] = variants objects sha256
  blobs : ∀ sha256, sha256 ∈ aggregate.blobVariantBytes.entries.map Prod.fst ↔
    sha256 ∈ blobShas objects
  thumbs : ∀ sha256, (aggregate.thumbBytes.get? sha256).getD 0 = thumbBytes objects sha256
  bindings : aggregate.sidecarBindings.entries.map Prod.fst = bindings objects
  physicalBytes : aggregate.physicalBytes = (objects.map Prod.snd).sum
  physicalObjects : aggregate.physicalObjects = objects.length
  unknownBytes : aggregate.unknownBytes = bytesOf objects fun key => classifyKey key = .unknown
  unknownObjects : aggregate.unknownObjects =
    (objects.filter fun object => classifyKey object.1 = .unknown).length

theorem aggregated_default : Aggregated [] .default where
  variants _ := rfl
  blobs _ := by simp [BucketAggregate.default, EntryMap.empty, blobShas]
  thumbs _ := rfl
  bindings := rfl
  physicalBytes := rfl
  physicalObjects := rfl
  unknownBytes := rfl
  unknownObjects := rfl

theorem Aggregated.fold (h : Aggregated objects aggregate) (hfresh : key ∉ objects.map Prod.fst)
    (hbytes : (objects.map Prod.snd).sum + size < 2 ^ 64) :
    ∃ next, aggregate.fold overflowChecks key size = some next ∧
      Aggregated (objects ++ [(key, size)]) next := by
  unfold BucketAggregate.fold
  rw [addU64_of_lt (by rw [h.physicalBytes]; exact hbytes), Option.bind_eq_bind, Option.bind_some]
  have hphysical : ((objects ++ [(key, size)]).map Prod.snd).sum =
      aggregate.physicalBytes + size := by simp [h.physicalBytes]
  have hobjects : (objects ++ [(key, size)]).length = aggregate.physicalObjects + 1 := by
    simp [h.physicalObjects]
  cases hclass : classifyKey key with
  | thumb sha256 =>
      refine ⟨_, rfl, ?_, ?_, ?_, ?_, hphysical.symm, hobjects.symm, ?_, ?_⟩
      · intro other
        simp [hclass, KeyClass.blobSha?, h.variants]
      · intro other
        rw [mem_blobShas_append, ← h.blobs]
        simp [hclass, KeyClass.blobSha?]
      · intro other
        rw [thumbBytes_append_singleton, EntryMap.get?_set, hclass, ← h.thumbs]
        by_cases hother : other = sha256
        · subst hother
          rw [if_pos rfl, if_pos rfl, h.thumbs, thumbBytes_of_fresh hfresh hclass, Nat.zero_add]
          rfl
        · rw [if_neg hother, if_neg (by simpa using Ne.symm hother)]
          exact (Nat.add_zero _).symm
      · simp [hclass, KeyClass.binding?, h.bindings]
      · simp [hclass, h.unknownBytes]
      · simp [hclass, h.unknownObjects]
  | blob sha256 ext =>
      refine ⟨_, rfl, ?_, ?_, ?_, ?_, hphysical.symm, hobjects.symm, ?_, ?_⟩
      · intro other
        rw [variants_append_singleton, EntryMap.get?_set, hclass, ← h.variants]
        by_cases hother : other = sha256
        · subst hother
          simp [KeyClass.blobSha?]
        · simp [KeyClass.blobSha?, hother, Ne.symm hother]
      · intro other
        rw [mem_blobShas_append, ← h.blobs, EntryMap.mem_set_keys, hclass]
        simp [KeyClass.blobSha?, or_comm, eq_comm]
      · intro other
        simp [hclass, h.thumbs]
      · simp [hclass, KeyClass.binding?, h.bindings]
      · simp [hclass, h.unknownBytes]
      · simp [hclass, h.unknownObjects]
  | sidecar community sha256 =>
      refine ⟨_, rfl, ?_, ?_, ?_, ?_, hphysical.symm, hobjects.symm, ?_, ?_⟩
      · intro other
        simp [hclass, KeyClass.blobSha?, h.variants]
      · intro other
        rw [mem_blobShas_append, ← h.blobs]
        simp [hclass, KeyClass.blobSha?]
      · intro other
        simp [hclass, h.thumbs]
      · have hnew := binding_of_fresh hfresh hclass
        rw [← h.bindings] at hnew
        rw [EntryMap.set_keys, if_neg hnew, h.bindings, bindings_append_singleton, hclass]
        rfl
      · simp [hclass, h.unknownBytes]
      · simp [hclass, h.unknownObjects]
  | auxiliary community sha256 eventId =>
      refine ⟨_, rfl, ?_, ?_, ?_, ?_, hphysical.symm, hobjects.symm, ?_, ?_⟩
      · intro other
        simp [hclass, KeyClass.blobSha?, h.variants]
      · intro other
        rw [mem_blobShas_append, ← h.blobs]
        simp [hclass, KeyClass.blobSha?]
      · intro other
        simp [hclass, h.thumbs]
      · simp [hclass, KeyClass.binding?, h.bindings]
      · simp [hclass, h.unknownBytes]
      · simp [hclass, h.unknownObjects]
  | unknown =>
      have hunknown : aggregate.unknownBytes + size < 2 ^ 64 := by
        have hle := @bytesOf_le objects fun key => classifyKey key = .unknown
        rw [h.unknownBytes]
        omega
      dsimp only
      rw [addU64_of_lt hunknown, Option.bind_some]
      refine ⟨_, rfl, ?_, ?_, ?_, ?_, hphysical.symm, hobjects.symm, ?_, ?_⟩
      · intro other
        simp [hclass, KeyClass.blobSha?, h.variants]
      · intro other
        rw [mem_blobShas_append, ← h.blobs]
        simp [hclass, KeyClass.blobSha?]
      · intro other
        simp [hclass, h.thumbs]
      · simp [hclass, KeyClass.binding?, h.bindings]
      · simp [hclass, h.unknownBytes]
      · simp [hclass, h.unknownObjects]

/-- The objects of a page are folded one after the other. -/
theorem Aggregated.foldPage (page : List (String × ℕ)) : ∀ (objects : List (String × ℕ)) aggregate,
    Aggregated objects aggregate → ((objects ++ page).map Prod.fst).Nodup →
    ((objects ++ page).map Prod.snd).sum < 2 ^ 64 →
    ∃ next, page.foldlM
        (fun held object => BucketAggregate.fold overflowChecks held object.1 object.2)
        aggregate = some next ∧ Aggregated (objects ++ page) next := by
  induction page with
  | nil =>
      intro objects aggregate h _ _
      exact ⟨aggregate, rfl, by rwa [List.append_nil]⟩
  | cons object rest ih =>
      intro objects aggregate h hnodup hbytes
      obtain ⟨key, size⟩ := object
      rw [List.append_cons] at hnodup hbytes ⊢
      have hfresh : key ∉ objects.map Prod.fst := by
        rw [List.map_append, List.map_append] at hnodup
        have hfront := (List.nodup_append.mp hnodup).1
        intro hmem
        exact (List.nodup_append.mp hfront).2.2 key hmem key (by simp) rfl
      have hsize : (objects.map Prod.snd).sum + size < 2 ^ 64 := by
        rw [List.map_append, List.map_append, List.sum_append, List.sum_append] at hbytes
        simp only [List.map_cons, List.map_nil, List.sum_cons, List.sum_nil] at hbytes
        omega
      obtain ⟨held, hheld, hheldFold⟩ :=
        @Aggregated.fold overflowChecks objects aggregate key size h hfresh hsize
      obtain ⟨next, hnext, hnextFold⟩ := ih _ held hheldFold hnodup hbytes
      refine ⟨next, ?_, hnextFold⟩
      rw [List.foldlM_cons, hheld]
      exact hnext

end Fold

section Join

variable {overflowChecks : Bool} {objects : List (String × ℕ)} {aggregate : BucketAggregate}

theorem countMultiVariant_of_lt {variants : List ℕ} {bytes : ℕ} {counts : BlobCounts}
    (h : counts.multiVariantBytes + bytes < 2 ^ 64) :
    countMultiVariant overflowChecks variants bytes counts = some { counts with
      multiVariantShas := counts.multiVariantShas + if variants.length > 1 then 1 else 0
      multiVariantBytes := counts.multiVariantBytes +
        if variants.length > 1 then bytes else 0 } := by
  unfold countMultiVariant
  by_cases hvariants : variants.length > 1
  · rw [if_pos hvariants, if_pos hvariants, if_pos hvariants, addU64_of_lt h]
    rfl
  · rw [if_neg hvariants, if_neg hvariants, if_neg hvariants]
    rfl

theorem countOrphan_of_lt {boundShas : List String} {sha256 : String} {bytes : ℕ}
    {counts : BlobCounts} (h : counts.orphanBlobBytes + bytes < 2 ^ 64) :
    countOrphan overflowChecks boundShas sha256 bytes counts = some { counts with
      orphanBlobCount := counts.orphanBlobCount + if sha256 ∉ boundShas then 1 else 0
      orphanBlobBytes := counts.orphanBlobBytes + if sha256 ∉ boundShas then bytes else 0 } := by
  unfold countOrphan
  by_cases hbound : sha256 ∉ boundShas
  · rw [if_pos hbound, if_pos hbound, if_pos hbound, addU64_of_lt h]
    rfl
  · rw [if_neg hbound, if_neg hbound, if_neg hbound]
    rfl

theorem countBlobs_of_lt (boundShas : List String) (blobs : List (String × List ℕ)) :
    ∀ counts : BlobCounts,
      counts.multiVariantBytes + (blobs.map fun blob => blob.2.sum).sum < 2 ^ 64 →
      counts.orphanBlobBytes + (blobs.map fun blob => blob.2.sum).sum < 2 ^ 64 →
      blobs.foldlM (countBlob overflowChecks boundShas) counts = some
        ⟨counts.multiVariantShas + (blobs.filter fun blob => blob.2.length > 1).length,
          counts.multiVariantBytes +
            ((blobs.filter fun blob => blob.2.length > 1).map fun blob => blob.2.sum).sum,
          counts.orphanBlobCount + (blobs.filter fun blob => blob.1 ∉ boundShas).length,
          counts.orphanBlobBytes +
            ((blobs.filter fun blob => blob.1 ∉ boundShas).map fun blob => blob.2.sum).sum⟩ := by
  induction blobs with
  | nil => exact fun counts _ _ => rfl
  | cons blob rest ih =>
      intro counts hmulti horphan
      rw [List.map_cons, List.sum_cons] at hmulti horphan
      have hround : countBlob overflowChecks boundShas counts blob = some
          ⟨counts.multiVariantShas + (if blob.2.length > 1 then 1 else 0),
            counts.multiVariantBytes + (if blob.2.length > 1 then blob.2.sum else 0),
            counts.orphanBlobCount + (if blob.1 ∉ boundShas then 1 else 0),
            counts.orphanBlobBytes + (if blob.1 ∉ boundShas then blob.2.sum else 0)⟩ := by
        unfold countBlob
        rw [sumU64_of_lt (by omega), Option.bind_eq_bind, Option.bind_some,
          countMultiVariant_of_lt (by omega), Option.bind_eq_bind, Option.bind_some]
        exact countOrphan_of_lt (show counts.orphanBlobBytes + blob.2.sum < 2 ^ 64 by omega)
      rw [List.foldlM_cons, hround, Option.bind_eq_bind, Option.bind_some, ih]
      · congr 1
        by_cases hvariants : blob.2.length > 1
        · by_cases hbound : blob.1 ∈ boundShas
          · simp [hvariants, hbound]
            omega
          · simp [hvariants, hbound]
            omega
        · by_cases hbound : blob.1 ∈ boundShas
          · simp [hvariants, hbound]
          · simp [hvariants, hbound]
            omega
      · dsimp only
        split_ifs
        all_goals omega
      · dsimp only
        split_ifs
        all_goals omega

/-- What the bindings bill a community. -/
def storageIn (bill : String → ℕ) (bindings : List (Uuid × String)) (community : Uuid) :
    CommunityStorage where
  bytes := (((bindings.filter fun binding => binding.1 = community).map Prod.snd).map bill).sum
  objects := ((bindings.filter fun binding => binding.1 = community).map Prod.snd).length

variable {bill : String → ℕ} {done : List (Uuid × String)} {binding : Uuid × String}
  {perCommunity : EntryMap Uuid CommunityStorage}

theorem storageIn_append (rest : List (Uuid × String)) (community : Uuid) :
    storageIn bill (done ++ rest) community =
      ⟨(storageIn bill done community).bytes + (storageIn bill rest community).bytes,
        (storageIn bill done community).objects + (storageIn bill rest community).objects⟩ := by
  simp [storageIn]

theorem storageIn_singleton (community : Uuid) :
    storageIn bill [binding] community =
      if binding.1 = community then ⟨bill binding.2, 1⟩ else ⟨0, 0⟩ := by
  by_cases hcommunity : binding.1 = community
  · simp [storageIn, hcommunity]
  · simp [storageIn, hcommunity]

/-- The entries of the communities after some bindings. -/
structure Billed (bill : String → ℕ) (done : List (Uuid × String))
    (perCommunity : EntryMap Uuid CommunityStorage) : Prop where
  storage : ∀ community, (perCommunity.get? community).getD ⟨0, 0⟩ = storageIn bill done community
  communities : ∀ community,
    community ∈ perCommunity.entries.map Prod.fst ↔ community ∈ done.map Prod.fst

theorem billed_empty : Billed bill [] .empty where
  storage _ := rfl
  communities _ := by simp [EntryMap.empty]

theorem Billed.billBinding (h : Billed bill done perCommunity)
    (hbill : (sumU64 overflowChecks ((aggregate.blobVariantBytes.get? binding.2).getD [])).bind
      (fun blobBytes => addU64 overflowChecks blobBytes
        ((aggregate.thumbBytes.get? binding.2).getD 0)) = some (bill binding.2))
    (hlt : (storageIn bill (done ++ [binding]) binding.1).bytes < 2 ^ 64) :
    ∃ next, Bucket.billBinding overflowChecks aggregate perCommunity binding = some next ∧
      Billed bill (done ++ [binding]) next := by
  obtain ⟨blobBytes, hblob, hthumb⟩ := Option.bind_eq_some_iff.mp hbill
  rw [storageIn_append, storageIn_singleton, if_pos rfl] at hlt
  unfold Bucket.billBinding
  rw [hblob, Option.bind_eq_bind, Option.bind_some]
  dsimp only
  rw [hthumb, h.storage, Option.bind_some, addU64_of_lt hlt, Option.bind_some]
  refine ⟨_, rfl, fun community => ?_, fun community => ?_⟩
  · rw [EntryMap.get?_set, storageIn_append, storageIn_singleton]
    by_cases hcommunity : community = binding.1
    · subst hcommunity
      simp
    · rw [if_neg hcommunity, if_neg (Ne.symm hcommunity), h.storage]
      rfl
  · rw [EntryMap.mem_set_keys, h.communities]
    simp [or_comm]

def KeyClass.ownerSha? : KeyClass → Option String
  | .thumb sha256 => some sha256
  | .blob sha256 _ => some sha256
  | _ => none

theorem sum_ite_blob_thumb (keyClass : KeyClass) (sha256 : String) (size : ℕ) :
    (if keyClass.blobSha? = some sha256 then [size] else []).sum +
      (if keyClass = .thumb sha256 then size else 0) =
      if keyClass.ownerSha? = some sha256 then size else 0 := by
  cases keyClass with
  | thumb found => simp [KeyClass.blobSha?, KeyClass.ownerSha?]
  | blob found ext =>
      by_cases hfound : found = sha256
      · simp [KeyClass.blobSha?, KeyClass.ownerSha?, hfound]
      · simp [KeyClass.blobSha?, KeyClass.ownerSha?, hfound]
  | sidecar community found => rfl
  | auxiliary community found event => rfl
  | unknown => rfl

theorem billed_eq (objects : List (String × ℕ)) (sha256 : String) : billed objects sha256 =
    bytesOf objects fun key => (classifyKey key).ownerSha? = some sha256 := by
  induction objects using List.reverseRecOn with
  | nil => rfl
  | append_singleton rest object ih =>
      obtain ⟨key, size⟩ := object
      have hone := sum_ite_blob_thumb (classifyKey key) sha256 size
      unfold billed at ih ⊢
      rw [variants_append_singleton, thumbBytes_append_singleton, bytesOf_append_singleton,
        List.sum_append, ← ih]
      simp only [decide_eq_true_eq]
      omega

theorem billed_sum_le {shas : List String} (hnodup : shas.Nodup) :
    (shas.map (billed objects)).sum ≤ (objects.map Prod.snd).sum := by
  rw [List.map_congr_left fun sha256 _ => billed_eq objects sha256]
  refine sum_owned_le ?_ Prod.snd shas objects hnodup
  intro first second object hfirst hsecond
  exact Option.some.inj ((of_decide_eq_true hfirst).symm.trans (of_decide_eq_true hsecond))

theorem variants_sum_le {shas : List String} (hnodup : shas.Nodup) :
    (shas.map fun sha256 => (variants objects sha256).sum).sum ≤ (objects.map Prod.snd).sum := by
  refine sum_owned_le ?_ Prod.snd shas objects hnodup
  intro first second object hfirst hsecond
  exact Option.some.inj ((of_decide_eq_true hfirst).symm.trans (of_decide_eq_true hsecond))

theorem storageIn_le {bindings : List (Uuid × String)} (hnodup : bindings.Nodup)
    (community : Uuid) :
    (storageIn (billed objects) bindings community).bytes ≤ (objects.map Prod.snd).sum := by
  refine billed_sum_le ((hnodup.filter _).map_on ?_)
  intro first hfirst second hsecond heq
  have hfirstCommunity := of_decide_eq_true (List.mem_filter.mp hfirst).2
  have hsecondCommunity := of_decide_eq_true (List.mem_filter.mp hsecond).2
  exact Prod.ext (hfirstCommunity.trans hsecondCommunity.symm) heq

/-- What a digest is billed is in the aggregate. -/
theorem Aggregated.sum_bill (h : Aggregated objects aggregate)
    (hbytes : (objects.map Prod.snd).sum < 2 ^ 64) (sha256 : String) :
    (sumU64 overflowChecks ((aggregate.blobVariantBytes.get? sha256).getD [])).bind
      (fun blobBytes => addU64 overflowChecks blobBytes
        ((aggregate.thumbBytes.get? sha256).getD 0)) = some (billed objects sha256) := by
  have hle : ([sha256].map (billed objects)).sum ≤ _ := billed_sum_le (List.nodup_singleton sha256)
  rw [List.map_singleton, List.sum_singleton] at hle
  unfold billed at hle
  rw [h.variants, h.thumbs, sumU64_of_lt (by omega), Option.bind_some, addU64_of_lt (by omega)]
  rfl

theorem Aggregated.billAll (h : Aggregated objects aggregate)
    (hbytes : (objects.map Prod.snd).sum < 2 ^ 64) (rest : List (Uuid × String)) :
    ∀ (done : List (Uuid × String)) (perCommunity : EntryMap Uuid CommunityStorage),
      (done ++ rest).Nodup → Billed (billed objects) done perCommunity →
      ∃ next, rest.foldlM (Bucket.billBinding overflowChecks aggregate) perCommunity = some next ∧
        Billed (billed objects) (done ++ rest) next := by
  induction rest with
  | nil =>
      intro done perCommunity _ hbilled
      exact ⟨perCommunity, rfl, by rwa [List.append_nil]⟩
  | cons binding rest ih =>
      intro done perCommunity hnodup hbilled
      rw [List.append_cons] at hnodup ⊢
      have hle := @storageIn_le objects _ (List.nodup_append.mp hnodup).1 binding.1
      obtain ⟨held, hheld, hheldBilled⟩ :=
        @Billed.billBinding overflowChecks aggregate _ done binding perCommunity hbilled
          (h.sum_bill hbytes binding.2) (by omega)
      obtain ⟨next, hnext, hnextBilled⟩ := ih _ held hnodup hheldBilled
      refine ⟨next, ?_, hnextBilled⟩
      rw [List.foldlM_cons, hheld]
      exact hnext

theorem Aggregated.blobs_perm (h : Aggregated objects aggregate) (hash : HashOrder) :
    (hash.order aggregate.blobVariantBytes.entries).Perm
      ((blobShas objects).map fun sha256 => (sha256, Bucket.variants objects sha256)) := by
  refine (hash.perm _).trans (EntryMap.entries_perm (List.nodup_dedup _) h.blobs ?_)
  intro sha256 found hfound
  rw [← h.variants, hfound]
  rfl

theorem Aggregated.bindings_perm (h : Aggregated objects aggregate) (hash : HashOrder) :
    ((hash.order aggregate.sidecarBindings.entries).map Prod.fst).Perm
      (Bucket.bindings objects) := by
  rw [← h.bindings]
  exact (hash.perm _).map Prod.fst

/-- Bindings billed in any order give the same storage. -/
theorem storageIn_perm {bindings : List (Uuid × String)} (hperm : done.Perm bindings)
    (community : Uuid) : storageIn bill done community = storageIn bill bindings community := by
  have hshas := (hperm.filter fun binding => binding.1 = community).map Prod.snd
  unfold storageIn
  rw [(hshas.map bill).sum_eq, hshas.length_eq]

theorem Billed.entries_perm (h : Billed (billed objects) done perCommunity)
    (hperm : done.Perm (bindings objects)) : perCommunity.entries.Perm
      ((Bucket.communities objects).map fun community =>
        (community, storageOf objects community)) := by
  refine EntryMap.entries_perm (List.nodup_dedup _) ?_ ?_
  · intro community
    rw [h.communities, Bucket.communities, List.mem_dedup]
    exact (hperm.map Prod.fst).mem_iff
  · intro community storage hstorage
    have hheld := h.storage community
    rw [hstorage, storageIn_perm hperm] at hheld
    exact hheld

/-- Every binding is of one community. -/
theorem sum_objects_communities (found : List (Uuid × String)) :
    ((found.map Prod.fst).dedup.map fun community =>
      (found.filter fun binding => binding.1 = community).length).sum = found.length := by
  have hcount := List.sum_map_count_dedup_eq_length (found.map Prod.fst)
  rw [List.length_map] at hcount
  rw [← hcount]
  congr 1
  apply List.map_congr_left
  intro community _
  rw [List.count, List.countP_map, List.countP_eq_length_filter]
  rfl

theorem Aggregated.filter_blobs_perm (h : Aggregated objects aggregate) (hash : HashOrder)
    {kept : String × List ℕ → Bool} {keptSha : String → Bool}
    (hkept : ∀ sha256, kept (sha256, Bucket.variants objects sha256) = keptSha sha256) :
    ((hash.order aggregate.blobVariantBytes.entries).filter kept).Perm
      (((blobShas objects).filter keptSha).map fun sha256 =>
        (sha256, Bucket.variants objects sha256)) := by
  refine ((h.blobs_perm hash).filter kept).trans (.of_eq ?_)
  rw [List.filter_map]
  congr 1
  exact List.filter_congr fun sha256 _ => hkept sha256

theorem Aggregated.finish (h : Aggregated objects aggregate) (hash : HashOrder)
    (hbytes : (objects.map Prod.snd).sum < 2 ^ 64) (hlogical : logicalTotal objects < 2 ^ 64) :
    ∃ snapshot, aggregate.finish overflowChecks hash = some snapshot ∧
      Surveyed objects snapshot := by
  have hblobs := h.blobs_perm hash
  have hbindings := h.bindings_perm hash
  have hvariants : ((hash.order aggregate.blobVariantBytes.entries).map
      fun blob => blob.2.sum).sum ≤ (objects.map Prod.snd).sum := by
    rw [(hblobs.map fun blob => blob.2.sum).sum_eq, List.map_map]
    exact variants_sum_le (List.nodup_dedup _)
  obtain ⟨perCommunity, hbill, hbilled⟩ := @Aggregated.billAll overflowChecks objects aggregate h
    hbytes ((hash.order aggregate.sidecarBindings.entries).map Prod.fst) [] .empty
    (hbindings.nodup_iff.mpr (h.bindings ▸ aggregate.sidecarBindings.nodup)) billed_empty
  rw [List.nil_append] at hbilled
  have hentries := hbilled.entries_perm hbindings
  have hvalues := (((hash.perm perCommunity.entries).trans hentries).map Prod.snd)
  have hsum : (((hash.order perCommunity.entries).map Prod.snd).map CommunityStorage.bytes).sum =
      logicalTotal objects := by
    rw [(hvalues.map CommunityStorage.bytes).sum_eq, List.map_map, List.map_map]
    rfl
  have hmulti : ((hash.order aggregate.blobVariantBytes.entries).filter fun blob =>
      blob.2.length > 1).Perm ((multiVariants objects).map fun sha256 =>
        (sha256, Bucket.variants objects sha256)) :=
    h.filter_blobs_perm hash fun _ => rfl
  have horphans : ((hash.order aggregate.blobVariantBytes.entries).filter fun blob =>
      blob.1 ∉ ((hash.order aggregate.sidecarBindings.entries).map Prod.fst).map Prod.snd).Perm
        ((orphanBlobs objects).map fun sha256 => (sha256, Bucket.variants objects sha256)) := by
    apply h.filter_blobs_perm hash
    intro sha256
    rw [decide_eq_decide, (hbindings.map Prod.snd).mem_iff]
  have hobjects : (((hash.order perCommunity.entries).map Prod.snd).map
      CommunityStorage.objects).sum = (Bucket.bindings objects).length := by
    rw [(hvalues.map CommunityStorage.objects).sum_eq, List.map_map, List.map_map,
      ← sum_objects_communities]
    congr 1
    apply List.map_congr_left
    intro community _
    exact List.length_map _
  have hsidecars : (((hash.order aggregate.sidecarBindings.entries).map Prod.fst).filter
      fun binding => aggregate.blobVariantBytes.get? binding.2 = none).length =
        (orphanSidecars objects).length := by
    rw [(hbindings.filter _).length_eq]
    congr 1
    apply List.filter_congr
    intro binding _
    rw [decide_eq_decide, EntryMap.get?_eq_none_iff, h.blobs]
  have hmultiBytes :=
    (hmulti.map fun blob => blob.2.sum).sum_eq.trans (congrArg List.sum List.map_map)
  have horphanBytes :=
    (horphans.map fun blob => blob.2.sum).sum_eq.trans (congrArg List.sum List.map_map)
  have hmultiShas := hmulti.length_eq
  have horphanCount := horphans.length_eq
  rw [List.length_map] at hmultiShas horphanCount
  unfold BucketAggregate.finish
  dsimp only
  rw [countBlobs_of_lt _ _ _ (by dsimp only; omega) (by dsimp only; omega), Option.bind_eq_bind,
    Option.bind_some, hbill, Option.bind_eq_bind, Option.bind_some, sumU64_of_lt (by omega),
    Option.bind_eq_bind, Option.bind_some]
  exact ⟨_, rfl, h.physicalBytes, h.physicalObjects, hentries, hsum, hobjects,
    (Nat.zero_add _).trans horphanBytes, (Nat.zero_add _).trans horphanCount, hsidecars,
    (Nat.zero_add _).trans hmultiShas, (Nat.zero_add _).trans hmultiBytes, h.unknownBytes,
    h.unknownObjects⟩

end Join

section Order

variable {listing objects : List (String × ℕ)} {snapshot other : BucketSnapshot}

/-- Two snapshots with equal fields, the order of a hash map aside. -/
structure BucketSnapshot.Same (snapshot other : BucketSnapshot) : Prop where
  physicalBytes : snapshot.physicalBytes = other.physicalBytes
  physicalObjects : snapshot.physicalObjects = other.physicalObjects
  logicalBytes : snapshot.logicalBytes = other.logicalBytes
  logicalObjects : snapshot.logicalObjects = other.logicalObjects
  perCommunity : snapshot.perCommunity.entries.Perm other.perCommunity.entries
  orphanBlobBytes : snapshot.orphanBlobBytes = other.orphanBlobBytes
  orphanBlobCount : snapshot.orphanBlobCount = other.orphanBlobCount
  orphanSidecarCount : snapshot.orphanSidecarCount = other.orphanSidecarCount
  multiVariantShas : snapshot.multiVariantShas = other.multiVariantShas
  multiVariantBytes : snapshot.multiVariantBytes = other.multiVariantBytes
  unknownKeyBytes : snapshot.unknownKeyBytes = other.unknownKeyBytes
  unknownKeyObjects : snapshot.unknownKeyObjects = other.unknownKeyObjects

theorem Surveyed.same (h : Surveyed objects snapshot) (hother : Surveyed objects other) :
    snapshot.Same other where
  physicalBytes := h.physicalBytes.trans hother.physicalBytes.symm
  physicalObjects := h.physicalObjects.trans hother.physicalObjects.symm
  logicalBytes := h.logicalBytes.trans hother.logicalBytes.symm
  logicalObjects := h.logicalObjects.trans hother.logicalObjects.symm
  perCommunity := h.perCommunity.trans hother.perCommunity.symm
  orphanBlobBytes := h.orphanBlobBytes.trans hother.orphanBlobBytes.symm
  orphanBlobCount := h.orphanBlobCount.trans hother.orphanBlobCount.symm
  orphanSidecarCount := h.orphanSidecarCount.trans hother.orphanSidecarCount.symm
  multiVariantShas := h.multiVariantShas.trans hother.multiVariantShas.symm
  multiVariantBytes := h.multiVariantBytes.trans hother.multiVariantBytes.symm
  unknownKeyBytes := h.unknownKeyBytes.trans hother.unknownKeyBytes.symm
  unknownKeyObjects := h.unknownKeyObjects.trans hother.unknownKeyObjects.symm

section Perm

variable (hperm : listing.Perm objects)

include hperm

theorem bytesOf_perm (kept : String → Bool) : bytesOf listing kept = bytesOf objects kept :=
  ((hperm.filter _).map Prod.snd).sum_eq

theorem variants_perm (sha256 : String) :
    (variants listing sha256).Perm (variants objects sha256) :=
  (hperm.filter _).map Prod.snd

theorem blobShas_perm : (blobShas listing).Perm (blobShas objects) :=
  (hperm.filterMap _).dedup

theorem bindings_perm : (bindings listing).Perm (bindings objects) :=
  hperm.filterMap _

theorem communities_perm : (communities listing).Perm (communities objects) :=
  ((bindings_perm hperm).map Prod.fst).dedup

theorem storageOf_perm (community : Uuid) :
    storageOf listing community = storageOf objects community := by
  have hbilled : billed listing = billed objects := by
    funext sha256
    unfold billed thumbBytes
    rw [(variants_perm hperm sha256).sum_eq, bytesOf_perm hperm]
  have hstorage := @storageIn_perm (billed objects) _ _ (bindings_perm hperm) community
  unfold storageOf
  rw [hbilled]
  exact hstorage

theorem logicalTotal_perm : logicalTotal listing = logicalTotal objects := by
  unfold logicalTotal
  rw [List.map_congr_left fun community _ => by rw [storageOf_perm hperm community],
    ((communities_perm hperm).map _).sum_eq]

theorem multiVariants_perm : (multiVariants listing).Perm (multiVariants objects) := by
  refine ((blobShas_perm hperm).filter _).trans (.of_eq (List.filter_congr fun sha256 _ => ?_))
  rw [(variants_perm hperm sha256).length_eq]

theorem orphanBlobs_perm : (orphanBlobs listing).Perm (orphanBlobs objects) := by
  refine ((blobShas_perm hperm).filter _).trans (.of_eq (List.filter_congr fun sha256 _ => ?_))
  rw [decide_eq_decide, ((bindings_perm hperm).map Prod.snd).mem_iff]

theorem orphanSidecars_perm : (orphanSidecars listing).Perm (orphanSidecars objects) := by
  refine ((bindings_perm hperm).filter _).trans (.of_eq (List.filter_congr fun binding _ => ?_))
  rw [decide_eq_decide, (blobShas_perm hperm).mem_iff]

theorem sum_variants_perm {shas others : List String} (hshas : shas.Perm others) :
    (shas.map fun sha256 => (variants listing sha256).sum).sum =
      (others.map fun sha256 => (variants objects sha256).sum).sum := by
  rw [List.map_congr_left fun sha256 _ => (variants_perm hperm sha256).sum_eq,
    (hshas.map _).sum_eq]

/-- The order of a listing is not in its survey. -/
theorem Surveyed.perm (h : Surveyed listing snapshot) : Surveyed objects snapshot where
  physicalBytes := h.physicalBytes.trans (hperm.map Prod.snd).sum_eq
  physicalObjects := h.physicalObjects.trans hperm.length_eq
  perCommunity := by
    refine h.perCommunity.trans (((communities_perm hperm).map _).trans (.of_eq ?_))
    exact List.map_congr_left fun community _ => by rw [storageOf_perm hperm community]
  logicalBytes := h.logicalBytes.trans (logicalTotal_perm hperm)
  logicalObjects := h.logicalObjects.trans (bindings_perm hperm).length_eq
  orphanBlobBytes := h.orphanBlobBytes.trans (sum_variants_perm hperm (orphanBlobs_perm hperm))
  orphanBlobCount := h.orphanBlobCount.trans (orphanBlobs_perm hperm).length_eq
  orphanSidecarCount := h.orphanSidecarCount.trans (orphanSidecars_perm hperm).length_eq
  multiVariantShas := h.multiVariantShas.trans (multiVariants_perm hperm).length_eq
  multiVariantBytes :=
    h.multiVariantBytes.trans (sum_variants_perm hperm (multiVariants_perm hperm))
  unknownKeyBytes := h.unknownKeyBytes.trans (bytesOf_perm hperm _)
  unknownKeyObjects := h.unknownKeyObjects.trans (hperm.filter _).length_eq

end Perm

end Order

section Listing

/-- The page source lists the objects of the pages, from its `n`-th call on. -/
inductive Serves {ε : Type} (fetchPage : ℕ → Option String → Except ε Page) :
    ℕ → Option String → List (List (String × ℕ)) → Prop where
  | last {n : ℕ} {token : Option String} {page : Page} (hfetch : fetchPage n token = .ok page)
      (hlast : page.isTruncated = false) : Serves fetchPage n token [page.objects]
  | more {n : ℕ} {token : Option String} {page : Page} {next : String}
      {rest : List (List (String × ℕ))} (hfetch : fetchPage n token = .ok page)
      (hmore : page.isTruncated = true) (hnext : page.nextContinuationToken = some next)
      (hrest : Serves fetchPage (n + 1) (some next) rest) :
      Serves fetchPage n token (page.objects :: rest)

variable {ε : Type} {overflowChecks : Bool} {hash : HashOrder} {cap : ℕ}
  {fetchPage : ℕ → Option String → Except ε Page}

/-- A listing within the cap ends in the snapshot of what it lists. -/
theorem foldPages_of_serves {n : ℕ} {token : Option String} {pages : List (List (String × ℕ))}
    (h : Serves fetchPage n token pages) : ∀ (objects : List (String × ℕ)) aggregate seen fuel,
    Aggregated objects aggregate → ((objects ++ pages.flatten).map Prod.fst).Nodup →
    ((objects ++ pages.flatten).map Prod.snd).sum < 2 ^ 64 →
    logicalTotal (objects ++ pages.flatten) < 2 ^ 64 → seen + pages.flatten.length ≤ cap →
    pages.length ≤ fuel →
    ∃ snapshot, foldPages overflowChecks hash cap fetchPage fuel n token seen aggregate =
      .done snapshot ∧ Surveyed (objects ++ pages.flatten) snapshot := by
  induction h with
  | last hfetch hlast =>
      intro objects aggregate seen fuel h hnodup hbytes hlogical hcap hfuel
      rw [List.flatten_cons, List.flatten_nil, List.append_nil] at *
      cases fuel with
      | zero => simp at hfuel
      | succ fuel =>
          obtain ⟨held, hheld, hheldFold⟩ :=
            @Aggregated.foldPage overflowChecks _ _ _ h hnodup hbytes
          obtain ⟨snapshot, hfinish, hsurvey⟩ :=
            @Aggregated.finish overflowChecks _ _ hheldFold hash hbytes hlogical
          refine ⟨snapshot, ?_, hsurvey⟩
          unfold foldPages
          rw [hfetch]
          dsimp only
          rw [if_neg (by omega), hheld]
          dsimp only
          rw [hlast, hfinish]
          rfl
  | @more n token page next rest hfetch hmore hnext hrest ih =>
      intro objects aggregate seen fuel h hnodup hbytes hlogical hcap hfuel
      rw [List.flatten_cons] at *
      rw [List.length_append] at hcap
      rw [← List.append_assoc] at hnodup hbytes hlogical ⊢
      cases fuel with
      | zero => simp at hfuel
      | succ fuel =>
          have hfront : ((objects ++ page.objects).map Prod.fst).Nodup := by
            rw [List.map_append] at hnodup
            exact hnodup.of_append_left
          have hfrontBytes : ((objects ++ page.objects).map Prod.snd).sum < 2 ^ 64 := by
            rw [List.map_append, List.sum_append] at hbytes
            omega
          obtain ⟨held, hheld, hheldFold⟩ :=
            @Aggregated.foldPage overflowChecks _ _ _ h hfront hfrontBytes
          obtain ⟨snapshot, hdone, hsurvey⟩ := ih _ held (seen + page.objects.length) fuel hheldFold
            hnodup hbytes hlogical (by omega) (by simpa using hfuel)
          refine ⟨snapshot, ?_, hsurvey⟩
          unfold foldPages
          rw [hfetch]
          dsimp only
          rw [if_neg (by omega), hheld]
          dsimp only
          rw [if_pos hmore, hnext]
          exact hdone

theorem lt_of_finish {aggregate : BucketAggregate} {snapshot : BucketSnapshot}
    (h : aggregate.finish overflowChecks hash = some snapshot) :
    snapshot.logicalBytes < 2 ^ 64 := by
  unfold BucketAggregate.finish at h
  dsimp only at h
  obtain ⟨counts, -, h⟩ := Option.bind_eq_some_iff.mp h
  obtain ⟨perCommunity, -, h⟩ := Option.bind_eq_some_iff.mp h
  obtain ⟨logicalBytes, hlogical, h⟩ := Option.bind_eq_some_iff.mp h
  obtain rfl := Option.some.inj h
  exact lt_of_sumU64 hlogical

/-- Only a listing that is complete and within the cap ends in a snapshot. -/
theorem serves_of_done (fuel : ℕ) : ∀ (n : ℕ) (token : Option String) seen aggregate snapshot,
    foldPages overflowChecks hash cap fetchPage fuel n token seen aggregate = .done snapshot →
    (∃ pages, Serves fetchPage n token pages ∧ seen + pages.flatten.length ≤ cap) ∧
      snapshot.logicalBytes < 2 ^ 64 := by
  induction fuel with
  | zero =>
      intro n token seen aggregate snapshot h
      cases h
  | succ fuel ih =>
      intro n token seen aggregate snapshot h
      unfold foldPages at h
      cases hfetch : fetchPage n token with
      | error error =>
          rw [hfetch] at h
          cases h
      | ok page =>
          rw [hfetch] at h
          dsimp only at h
          by_cases hcap : seen + page.objects.length > cap
          · rw [if_pos hcap] at h
            cases h
          rw [if_neg hcap] at h
          cases hfold : page.objects.foldlM
              (fun held object => BucketAggregate.fold overflowChecks held object.1 object.2)
              aggregate with
          | none =>
              rw [hfold] at h
              cases h
          | some held =>
              rw [hfold] at h
              dsimp only at h
              split_ifs at h with htruncated
              · cases hnext : page.nextContinuationToken with
                | none =>
                    rw [hnext] at h
                    cases h
                | some next =>
                    rw [hnext] at h
                    obtain ⟨⟨pages, hpages, hlength⟩, hbytes⟩ := ih _ _ _ _ _ h
                    refine ⟨⟨page.objects :: pages, .more hfetch htruncated hnext hpages, ?_⟩,
                      hbytes⟩
                    rw [List.flatten_cons, List.length_append]
                    omega
              · cases hfinish : held.finish overflowChecks hash with
                | none =>
                    rw [hfinish] at h
                    cases h
                | some found =>
                    rw [hfinish] at h
                    obtain rfl := SweepOutcome.done.inj h
                    refine ⟨⟨[page.objects], .last hfetch (by simpa using htruncated), ?_⟩, ?_⟩
                    · rw [List.flatten_cons, List.flatten_nil, List.append_nil]
                      omega
                    · exact lt_of_finish hfinish

end Listing

section Exact

/-- Every listing of the objects within the cap ends in one and the same snapshot, the survey of
the objects. -/
def SweepExact (overflowChecks : Bool) (objects : List (String × ℕ)) : Prop :=
  ∃ expected, Surveyed objects expected ∧
    ∀ (ε : Type) (hash : HashOrder) (cap : ℕ) (fetchPage : ℕ → Option String → Except ε Page)
      (pages : List (List (String × ℕ))), Serves fetchPage 0 none pages →
      pages.flatten.Perm objects → objects.length ≤ cap →
      ∃ rounds, ∀ fuel, rounds ≤ fuel → ∃ snapshot,
        foldBucketListing overflowChecks hash cap fetchPage fuel = .done snapshot ∧
          snapshot.Same expected

/-- A listing that fails, does not end or passes the cap has no snapshot. -/
def NoPartialSweep (overflowChecks : Bool) : Prop :=
  ∀ (ε : Type) (hash : HashOrder) (cap : ℕ) (fetchPage : ℕ → Option String → Except ε Page)
    (fuel : ℕ) (snapshot : BucketSnapshot),
    foldBucketListing overflowChecks hash cap fetchPage fuel = .done snapshot →
    ∃ pages, Serves fetchPage 0 none pages ∧ pages.flatten.length ≤ cap

def onePage (objects : List (String × ℕ)) : ℕ → Option String → Except Unit Page :=
  fun _ _ => .ok ⟨objects, none, false⟩

/-- The order of the entries as they are held. -/
def heldOrder : HashOrder where
  order entries := entries
  perm entries := .refl entries

theorem noPartialSweep (overflowChecks : Bool) : NoPartialSweep overflowChecks := by
  intro ε hash cap fetchPage fuel snapshot h
  obtain ⟨⟨pages, hpages, hlength⟩, -⟩ := serves_of_done fuel 0 none 0 _ _ h
  exact ⟨pages, hpages, by rwa [Nat.zero_add] at hlength⟩

theorem serves_onePage (objects : List (String × ℕ)) : Serves (onePage objects) 0 none [objects] :=
  @Serves.last Unit (onePage objects) 0 none ⟨objects, none, false⟩ rfl rfl

theorem lt_of_sweepExact {overflowChecks : Bool} {objects : List (String × ℕ)}
    (h : SweepExact overflowChecks objects) : logicalTotal objects < 2 ^ 64 := by
  obtain ⟨expected, hsurvey, hexact⟩ := h
  obtain ⟨rounds, hrounds⟩ := hexact Unit heldOrder objects.length (onePage objects) [objects]
    (serves_onePage objects) (by simp) le_rfl
  obtain ⟨snapshot, hdone, hsame⟩ := hrounds rounds le_rfl
  rw [← hsurvey.logicalBytes, ← hsame.logicalBytes]
  exact (serves_of_done _ _ _ _ _ _ hdone).2

/-- The sweep is exact if and only if the bytes billed to all communities together stay below
2^64. -/
theorem sweep_exact_iff (overflowChecks : Bool) (objects : List (String × ℕ))
    (hkeys : (objects.map Prod.fst).Nodup) (hbytes : (objects.map Prod.snd).sum < 2 ^ 64) :
    (SweepExact overflowChecks objects ∧ NoPartialSweep overflowChecks ∧
      ∀ key, ∃! keyClass, IsOfClass key keyClass) ↔ logicalTotal objects < 2 ^ 64 := by
  constructor
  · exact fun h => lt_of_sweepExact h.1
  · intro hlogical
    have hsurveys : ∀ {ε : Type} (hash : HashOrder) (cap : ℕ)
        (fetchPage : ℕ → Option String → Except ε Page) (pages : List (List (String × ℕ))),
        Serves fetchPage 0 none pages → pages.flatten.Perm objects → objects.length ≤ cap →
        ∀ fuel, pages.length ≤ fuel → ∃ snapshot,
          foldBucketListing overflowChecks hash cap fetchPage fuel = .done snapshot ∧
            Surveyed objects snapshot := by
      intro ε hash cap fetchPage pages hpages hperm hcap fuel hfuel
      obtain ⟨snapshot, hdone, hsurvey⟩ := foldPages_of_serves hpages [] .default 0 fuel
        aggregated_default ((hperm.map Prod.fst).nodup_iff.mpr hkeys)
        ((hperm.map Prod.snd).sum_eq ▸ hbytes) (logicalTotal_perm hperm ▸ hlogical)
        (show 0 + pages.flatten.length ≤ cap by rw [hperm.length_eq]; omega) hfuel
      exact ⟨snapshot, hdone, hsurvey.perm hperm⟩
    obtain ⟨expected, -, hexpected⟩ := hsurveys heldOrder objects.length (onePage objects)
      [objects] (serves_onePage objects) (by simp) le_rfl 1 le_rfl
    refine ⟨⟨expected, hexpected, ?_⟩, noPartialSweep overflowChecks, fun key => ?_⟩
    · intro ε hash cap fetchPage pages hpages hperm hcap
      refine ⟨pages.length, fun fuel hfuel => ?_⟩
      obtain ⟨snapshot, hdone, hsurvey⟩ := hsurveys hash cap fetchPage pages hpages hperm hcap
        fuel hfuel
      exact ⟨snapshot, hdone, hsurvey.same hexpected⟩
    · exact ⟨classifyKey key, isOfClass_iff.mpr rfl, fun other hother =>
        (isOfClass_iff.mp hother).symm⟩

def sharedSha : String :=
  "aaaaaaaaaaaaaaaaaaaaaaaaaaaaaaaaaaaaaaaaaaaaaaaaaaaaaaaaaaaaaaaa"

/-- One blob that is bound in two communities. -/
def sharedBlob (size : ℕ) : List (String × ℕ) :=
  [(sharedSha ++ ".png", size),
    ("_meta/00000000-0000-0000-0000-000000000001/" ++ sharedSha ++ ".json", 0),
    ("_meta/00000000-0000-0000-0000-000000000002/" ++ sharedSha ++ ".json", 0)]

theorem sweep_exact_iff_shared :
    (SweepExact true (sharedBlob 5) ∧ NoPartialSweep true ∧
      ∀ key, ∃! keyClass, IsOfClass key keyClass) ↔ logicalTotal (sharedBlob 5) < 2 ^ 64 :=
  sweep_exact_iff true (sharedBlob 5) (by decide +kernel) (by decide +kernel)

/-- Half of 2^64 bytes billed twice: the sweep panics, or reports no logical bytes at all. -/
theorem shared_blob_not_swept :
    ((sharedBlob (2 ^ 63)).map Prod.fst).Nodup ∧
      ((sharedBlob (2 ^ 63)).map Prod.snd).sum < 2 ^ 64 ∧
      (match foldBucketListing true heldOrder 3 (onePage (sharedBlob (2 ^ 63))) 1 with
        | .panicked => true
        | _ => false) = true ∧
      (match foldBucketListing false heldOrder 3 (onePage (sharedBlob (2 ^ 63))) 1 with
        | .done snapshot => snapshot.logicalBytes == 0
        | _ => false) = true ∧
      ¬SweepExact true (sharedBlob (2 ^ 63)) ∧ ¬SweepExact false (sharedBlob (2 ^ 63)) := by
  have hlogical : ¬logicalTotal (sharedBlob (2 ^ 63)) < 2 ^ 64 := by decide +kernel
  exact ⟨by decide +kernel, by decide +kernel, by decide +kernel, by decide +kernel,
    fun h => hlogical (lt_of_sweepExact h), fun h => hlogical (lt_of_sweepExact h)⟩

end Exact

end Buzz.Bucket
