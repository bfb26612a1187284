import Rastreo.Net.HeapLedger
import Rastreo.Net.UrlParser

/-!
# The blocks of `url_parse`

Each component of a URL is read once, in the order of `urlFields`, so that a field is still NULL
when its block is stored. `Settles` says what a stage leaves: with NULL nothing of the record, with a
record just its blocks. `settles_urlParse` follows the stages, whichever allocations fail.
-/

namespace Rastreo.Net

open Rastreo.Lib

/-! ## The blocks of a record -/

/-- The blocks of some fields. -/
def fieldBlocks (fields : List (Option UrlStr)) : Multiset Block :=
  (fields.map fun s => Block.opt (s.map UrlStr.block)).sum

/-- The blocks of a record. -/
def UrlRecord.blocks (r : UrlRecord) : Multiset Block :=
  fieldBlocks [r.scheme, r.host, r.port, r.path, r.query, r.fragment, r.username, r.password] +
    {r.block}

theorem fieldBlocks_cons (s : Option UrlStr) (fields : List (Option UrlStr)) :
    fieldBlocks (s :: fields) = Block.opt (s.map UrlStr.block) + fieldBlocks fields := by
  simp [fieldBlocks]

/-- The fields of a record, in the order they are read. -/
def urlFields : List (UrlRecord → Option UrlStr) :=
  [UrlRecord.scheme, UrlRecord.username, UrlRecord.password, UrlRecord.host, UrlRecord.port,
    UrlRecord.path, UrlRecord.query, UrlRecord.fragment]

/-- The fields from the `n`-th on are NULL. -/
def Unset (n : Nat) (r : UrlRecord) : Prop := ∀ f ∈ urlFields.drop n, f r = none

theorem Unset.mono {n k : Nat} {r : UrlRecord} (h : Unset n r) (hk : n ≤ k) : Unset k r :=
  fun f hf => h f ((List.drop_sublist_drop_left urlFields hk).subset hf)

/-- What the fields hold, in the order they are read. -/
def UrlRecord.held (r : UrlRecord) : List (Option UrlStr) := urlFields.map fun f => f r

theorem blocks_held (r : UrlRecord) : r.blocks = fieldBlocks r.held + {r.block} := by
  simp only [UrlRecord.blocks, UrlRecord.held, urlFields, List.map_cons, List.map_nil,
    fieldBlocks_cons]
  abel

theorem unset_iff {n : Nat} {r : UrlRecord} : Unset n r ↔ ∀ s ∈ r.held.drop n, s = none := by
  unfold Unset UrlRecord.held
  rw [← List.map_drop, List.forall_mem_map]

/-- A block is stored in a field that was NULL. -/
theorem fieldBlocks_set {fields : List (Option UrlStr)} {n : Nat} (hn : fields[n]? = some none)
    (s : UrlStr) : fieldBlocks (fields.set n (some s)) = {s.block} + fieldBlocks fields := by
  induction fields generalizing n with
  | nil => cases hn
  | cons t fields ih =>
    cases n with
    | zero =>
      obtain rfl := Option.some.inj hn
      rw [List.set_cons_zero, fieldBlocks_cons, fieldBlocks_cons]
      simp
    | succ n =>
      rw [List.set_cons_succ, fieldBlocks_cons, fieldBlocks_cons, ih hn]
      abel

/-! ## A stage -/

/-- **What a stage leaves** of the heap: `S` and the blocks of the record, or `S` alone. -/
structure UrlStage.Settles (m : Bool) (S : Multiset Block) (n : Nat) (x : UrlStage) : Prop where
  failed : x.1 = none → x.2.Exactly m S
  held : ∀ r cur, x.1 = some (r, cur) → x.2.Exactly m (r.blocks + S) ∧ Unset n r

section Stages

variable {m : Bool} {S : Multiset Block} {h : Heap} {r : UrlRecord} {n k : Nat}

/-- The fields are released one by one. -/
theorem Heap.Exactly.fields {fields : List (Option UrlStr)}
    (hx : h.Exactly m (fieldBlocks fields + S)) :
    (fields.foldl (fun h s => dmemRelease h (s.map UrlStr.block)) h).Exactly m S := by
  induction fields generalizing h with
  | nil =>
    have hnil : fieldBlocks [] + S = S := by simp [fieldBlocks]
    exact hx.congr hnil
  | cons s fields ih =>
    rw [fieldBlocks_cons, add_assoc] at hx
    exact ih hx.releaseOpt

/-- **`url_parse_free`** releases the blocks of the record. -/
theorem Heap.Exactly.urlParseFree (hx : h.Exactly m (r.blocks + S)) :
    (urlParseFree h r).Exactly m S := by
  unfold UrlRecord.blocks at hx
  rw [add_assoc] at hx
  exact hx.fields.release

theorem settles_urlFail (hx : h.Exactly m (r.blocks + S)) : (urlFail h r).Settles m S n :=
  ⟨fun _ => hx.urlParseFree, fun _ _ heq => by cases heq⟩

/-- The stage goes on with the record as it is. -/
theorem settles_some (hx : h.Exactly m (r.blocks + S)) (hu : Unset n r) (cur : Bytes) :
    UrlStage.Settles m S n (some (r, cur), h) := by
  refine ⟨fun heq => (by cases heq), fun r' cur' heq => ?_⟩
  obtain ⟨rfl, -⟩ := Prod.mk.inj (Option.some.inj heq)
  exact ⟨hx, hu⟩

theorem UrlStage.Settles.andThen {x : UrlStage} {next : Heap → UrlRecord → Bytes → UrlStage}
    (hx : x.Settles m S n)
    (hnext : ∀ h r cur, h.Exactly m (r.blocks + S) → Unset n r → (next h r cur).Settles m S k) :
    (x.andThen next).Settles m S k := by
  obtain ⟨o, h⟩ := x
  cases o with
  | none => exact ⟨fun _ => hx.failed rfl, fun _ _ heq => by cases heq⟩
  | some p =>
    obtain ⟨hheld, hunset⟩ := hx.held p.1 p.2 rfl
    exact hnext h p.1 p.2 hheld hunset

/-- **A component in a block of its own**, stored in the field read next. -/
theorem settles_urlField {set : UrlRecord → UrlStr → UrlRecord} {field rest : Bytes}
    (hx : h.Exactly m (r.blocks + S)) (hu : Unset n r) (hn : n < urlFields.length)
    (hset : ∀ s, ∃ t, (set r s).held = r.held.set n (some t) ∧ t.block = s.block)
    (hblock : ∀ s, (set r s).block = r.block) :
    (urlField set field rest h r).Settles m S (n + 1) := by
  rw [unset_iff] at hu
  have hlen : n < r.held.length := by simpa [UrlRecord.held] using hn
  have hnull : r.held[n]? = some none := by
    have hnone := hu r.held[n] (List.mem_drop_iff_getElem.mpr ⟨0, by simpa using hlen, by simp⟩)
    rw [List.getElem?_eq_getElem hlen, hnone]
  unfold urlField
  dsimp only
  rcases hx.create_cases (field.length % 65536 + 1) with ⟨h', hc, hx'⟩ | ⟨b, h', hc, hx'⟩
  · rw [hc]
    exact settles_urlFail hx'
  · rw [hc]
    obtain ⟨t, hheld, hsame⟩ := hset ⟨b, (field.take (field.length % 65536))⟩
    refine settles_some (hx'.congr ?_) (unset_iff.mpr fun o ho => ?_) rest
    · rw [blocks_held, blocks_held, hheld, hblock, fieldBlocks_set hnull, hsame]
      abel
    · -- the fields behind it stay
      rw [hheld, List.drop_set_of_lt (Nat.lt_succ_self n)] at ho
      exact hu o ((List.drop_sublist_drop_left _ (Nat.le_succ n)).subset ho)

/-! ## The stages in order -/

variable (cur : Bytes)

theorem settles_urlScheme (hx : h.Exactly m (r.blocks + S)) (hu : Unset 0 r) :
    (urlScheme h r cur).Settles m S 1 := by
  unfold urlScheme
  split
  · dsimp only
    split
    · exact settles_urlField hx hu (by decide) (fun _ => ⟨_, rfl, rfl⟩) fun _ => rfl
    · exact settles_urlFail hx
  · exact settles_urlFail hx

theorem settles_urlSlashes (hx : h.Exactly m (r.blocks + S)) (hu : Unset n r) :
    (urlSlashes h r cur).Settles m S n := by
  unfold urlSlashes
  split
  · exact settles_some hx hu _
  · exact settles_urlFail hx

theorem settles_urlPassword (hx : h.Exactly m (r.blocks + S)) (hu : Unset 2 r) :
    (urlPassword h r cur).Settles m S 3 := by
  unfold urlPassword
  split
  · exact settles_urlField hx hu (by decide) (fun _ => ⟨_, rfl, rfl⟩) fun _ => rfl
  · exact settles_some hx (hu.mono (by omega)) _

theorem settles_urlAt (hx : h.Exactly m (r.blocks + S)) (hu : Unset n r) :
    (urlAt h r cur).Settles m S n := by
  unfold urlAt
  split
  · exact settles_some hx hu _
  · exact settles_urlFail hx

theorem settles_urlUser (hx : h.Exactly m (r.blocks + S)) (hu : Unset 1 r) :
    (urlUser h r cur).Settles m S 3 := by
  unfold urlUser
  split
  · have hname := @settles_urlField m S h r 1 (fun r s => { r with username := some s })
      (cur.takeWhile fun c => c ≠ 58 && c ≠ 64) (cur.dropWhile fun c => c ≠ 58 && c ≠ 64) hx hu
      (by decide) (fun _ => ⟨_, rfl, rfl⟩) fun _ => rfl
    exact (hname.andThen fun _ _ cur hx hu => settles_urlPassword cur hx hu).andThen
      fun _ _ cur hx hu => settles_urlAt cur hx hu
  · exact settles_some hx (hu.mono (by omega)) _

theorem settles_urlHost (hx : h.Exactly m (r.blocks + S)) (hu : Unset 3 r) :
    (urlHost h r cur).Settles m S 4 := by
  unfold urlHost
  refine (settles_urlField hx hu (by decide) (fun _ => ⟨_, rfl, rfl⟩) fun _ => rfl).andThen
    fun h r _ hx hu => ?_
  -- the block of an empty host is in the record by now
  split
  · exact settles_urlFail hx
  · exact settles_some hx hu _

theorem settles_urlPort (hx : h.Exactly m (r.blocks + S)) (hu : Unset 4 r) :
    (urlPort h r cur).Settles m S 5 := by
  unfold urlPort
  split
  · exact settles_urlField hx hu (by decide) (fun _ => ⟨_, rfl, rfl⟩) fun _ => rfl
  · exact settles_some hx (hu.mono (by omega)) _

theorem settles_urlPath (hx : h.Exactly m (r.blocks + S)) (hu : Unset 5 r) :
    (urlPath h r cur).Settles m S 6 := by
  unfold urlPath
  split
  · exact settles_urlField hx hu (by decide) (fun _ => ⟨_, rfl, rfl⟩) fun _ => rfl
  · exact settles_urlFail hx

theorem settles_urlQuery (hx : h.Exactly m (r.blocks + S)) (hu : Unset 6 r) :
    (urlQuery h r cur).Settles m S 7 := by
  unfold urlQuery
  split
  · exact settles_urlField hx hu (by decide) (fun _ => ⟨_, rfl, rfl⟩) fun _ => rfl
  · exact settles_some hx (hu.mono (by omega)) _

theorem settles_urlFragment (hx : h.Exactly m (r.blocks + S)) (hu : Unset 7 r) :
    (urlFragment h r cur).Settles m S 8 := by
  unfold urlFragment
  split
  · exact settles_urlField hx hu (by decide) (fun _ => ⟨_, rfl, rfl⟩) fun _ => rfl
  · exact settles_some hx (hu.mono (by omega)) _

theorem settles_urlTail (hx : h.Exactly m (r.blocks + S)) (hu : Unset 5 r) :
    (urlTail h r cur).Settles m S 8 := by
  unfold urlTail
  split
  · exact settles_some hx (hu.mono (by omega)) _
  · exact ((settles_urlPath cur hx hu).andThen fun _ _ cur hx hu => settles_urlQuery cur hx hu).andThen
      fun _ _ cur hx hu => settles_urlFragment cur hx hu

end Stages

/-! ## The function -/

variable {m : Bool} {S : Multiset Block} {h : Heap}

/-- **`url_parse`** leaves the blocks of its record, or nothing with NULL. -/
theorem exactly_urlParse (hx : h.Exactly m S) (url : Bytes) :
    ((urlParse h url).1 = none → (urlParse h url).2.Exactly m S) ∧
      ∀ r, (urlParse h url).1 = some r → (urlParse h url).2.Exactly m (r.blocks + S) := by
  unfold urlParse
  rcases hx.create_cases sizeofUrlData with ⟨h', hc, hx'⟩ | ⟨b, h', hc, hx'⟩
  · rw [hc]
    exact ⟨fun _ => hx', fun _ heq => by cases heq⟩
  · rw [hc]
    dsimp only
    have hstart : h'.Exactly m
        (UrlRecord.blocks ⟨b, none, none, none, none, none, none, none, none⟩ + S) := by
      refine hx'.congr ?_
      simp [UrlRecord.blocks, fieldBlocks]
    have hscheme := settles_urlScheme (cstr url) hstart (by simp [Unset, urlFields])
    have huser := (hscheme.andThen fun _ _ cur hx hu => settles_urlSlashes cur hx hu).andThen
      fun _ _ cur hx hu => settles_urlUser cur hx hu
    have hport := (huser.andThen fun _ _ cur hx hu => settles_urlHost cur hx hu).andThen
      fun _ _ cur hx hu => settles_urlPort cur hx hu
    have hstage := hport.andThen fun _ _ cur hx hu => settles_urlTail cur hx hu
    refine ⟨fun heq => hstage.failed (Option.map_eq_none_iff.mp heq), fun r heq => ?_⟩
    obtain ⟨⟨r', cur⟩, hsome, rfl⟩ := Option.map_eq_some_iff.mp heq
    exact (hstage.held r' cur hsome).1

end Rastreo.Net
