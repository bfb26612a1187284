import Rastreo.Net.UrlLedger

/-!
# What `url_parse` reads

`urlParseAt` is `url_parse` on memory: `curstr` and `tmpstr` are indices into the bytes that lie
from `url` on, and each stage gives, beside the record and the heap, the indices it reads in the order
of the source. The loops stop at a NUL and at nothing else.

* `skip_spec`, `strncpyAt_spec`, `allAt_spec`: what a loop reads lies between its pointer and the
  NUL, when its pointer does.
* `Shows`: a stage on memory does what the stage on texts does and stays inside the string; each
  stage does (`shows_*`), and so the function (`shows_urlParse`).
* `urlParse_safe`: no read lies behind the NUL, and every block is released once.
-/

namespace Rastreo.Net

open Rastreo.Lib

/-! ## The function on memory -/

/-- `*p`; a NUL stands for what lies behind the memory. -/
def byteAt (mem : Bytes) (i : Nat) : UInt8 := mem.getD i 0

theorem lt_of_byteAt_ne_zero {mem : Bytes} {i : Nat} (h : byteAt mem i ≠ 0) : i < mem.length := by
  by_contra hge
  exact h (List.getD_eq_default _ _ (by omega))

/-- `while ('\0' != *tmpstr && …) tmpstr++;` from `i` on: the final `tmpstr`, and the reads. -/
def skip (mem : Bytes) (go : UInt8 → Bool) (i : Nat) : Nat × List Nat :=
  if byteAt mem i ≠ 0 ∧ go (byteAt mem i) = true then
    let (j, reads) := skip mem go (i + 1)
    (j, i :: reads)
  else (i, [i])
termination_by mem.length - i
decreasing_by
  rename_i h
  have := lt_of_byteAt_ne_zero h.1
  omega

/-- The loop that checks the scheme. -/
def allAt (mem : Bytes) (p : UInt8 → Bool) (i : Nat) : Nat → Bool × List Nat
  | 0 => (true, [])
  | n + 1 =>
    if p (byteAt mem i) then
      let (ok, reads) := allAt mem p (i + 1) n
      (ok, i :: reads)
    else (false, [i])

/-- `strncpy`: the text it copies, and the reads. -/
def strncpyAt (mem : Bytes) (i : Nat) : Nat → Bytes × List Nat
  | 0 => ([], [])
  | n + 1 =>
    if byteAt mem i = 0 then ([], [i])
    else
      let (text, reads) := strncpyAt mem (i + 1) n
      (byteAt mem i :: text, i :: reads)

/-- What a stage on memory gives: the record and `curstr`, or NULL. -/
structure UrlWalk where
  out : Option (UrlRecord × Nat)
  heap : Heap
  reads : List Nat

/-- The next stage. -/
def UrlWalk.andThen (w : UrlWalk) (next : Heap → UrlRecord → Nat → UrlWalk) : UrlWalk :=
  match w.out with
  | none => w
  | some (r, cur) => { next w.heap r cur with reads := w.reads ++ (next w.heap r cur).reads }

/-- The stage, after these reads. -/
def UrlWalk.after (reads : List Nat) (w : UrlWalk) : UrlWalk := { w with reads := reads ++ w.reads }

/-- `url_parse_free (purl); return NULL;` -/
def urlFailAt (h : Heap) (r : UrlRecord) : UrlWalk := ⟨none, urlParseFree h r, []⟩

/-- The component between `curstr` and `tmpstr`, copied into a block of its own. -/
def urlFieldAt (mem : Bytes) (set : UrlRecord → UrlStr → UrlRecord) (cur tmp next : Nat) (h : Heap)
    (r : UrlRecord) : UrlWalk :=
  let len := (tmp - cur) % 65536
  match dmemCreate h (len + 1) with
  | (none, h) => urlFailAt h r
  | (some b, h) =>
    let (text, reads) := strncpyAt mem cur len
    ⟨some (set r ⟨b, text⟩, next), h, reads⟩

/-- The scheme, up to the first colon. -/
def urlSchemeAt (mem : Bytes) (h : Heap) (r : UrlRecord) (cur : Nat) : UrlWalk :=
  let (tmp, found) := skip mem (· ≠ 58) cur
  if byteAt mem tmp = 0 then (urlFailAt h r).after found
  else
    let (ok, checked) := allAt mem isSchemeChar cur ((tmp - cur) % 65536)
    (if ok then
      urlFieldAt mem (fun r s => { r with scheme := some ⟨s.block, s.text.map toLower⟩ }) cur tmp
        (tmp + 1) h r
    else urlFailAt h r).after (found ++ checked)

/-- Eat "//". -/
def urlSlashesAt (mem : Bytes) (h : Heap) (r : UrlRecord) (cur : Nat) : UrlWalk :=
  if byteAt mem cur ≠ 47 then (urlFailAt h r).after [cur]
  else if byteAt mem (cur + 1) ≠ 47 then (urlFailAt h r).after [cur, cur + 1]
  else ⟨some (r, cur + 2), h, [cur, cur + 1]⟩

/-- A component that its delimiter introduces; without the delimiter there is none. -/
def urlBehindAt (d : UInt8) (go : UInt8 → Bool) (set : UrlRecord → UrlStr → UrlRecord) (mem : Bytes)
    (h : Heap) (r : UrlRecord) (cur : Nat) : UrlWalk :=
  if byteAt mem cur = d then
    let (tmp, reads) := skip mem go (cur + 1)
    (urlFieldAt mem set (cur + 1) tmp tmp h r).after (cur :: reads)
  else ⟨some (r, cur), h, [cur]⟩

/-- The password, when the user name ended at a colon. -/
def urlPasswordAt : Bytes → Heap → UrlRecord → Nat → UrlWalk :=
  urlBehindAt 58 (· ≠ 64) fun r s => { r with password := some s }

/-- Skip the at sign. -/
def urlAtAt (mem : Bytes) (h : Heap) (r : UrlRecord) (cur : Nat) : UrlWalk :=
  if byteAt mem cur ≠ 64 then (urlFailAt h r).after [cur] else ⟨some (r, cur + 1), h, [cur]⟩

/-- User name and password. -/
def urlUserAt (mem : Bytes) (h : Heap) (r : UrlRecord) (cur : Nat) : UrlWalk :=
  let (stop, looked) := skip mem (fun c => !(c == 64 || c == 47)) cur
  if byteAt mem stop = 64 then
    let (tmp, named) := skip mem (fun c => c ≠ 58 && c ≠ 64) cur
    (((urlFieldAt mem (fun r s => { r with username := some s }) cur tmp tmp h r).andThen
      (urlPasswordAt mem)).andThen (urlAtAt mem)).after (looked ++ named)
  else ⟨some (r, cur), h, looked⟩

/-- The end of the host at the front. -/
def hostEnd (mem : Bytes) (cur : Nat) : Nat × List Nat :=
  if byteAt mem cur = 91 then
    let (tmp, reads) := skip mem (· ≠ 93) cur
    (if byteAt mem tmp = 0 then tmp else tmp + 1, cur :: reads)
  else
    let (tmp, reads) := skip mem (fun c => c ≠ 58 && c ≠ 47) cur
    (tmp, cur :: reads)

/-- The host; it must not be empty. -/
def urlHostAt (mem : Bytes) (h : Heap) (r : UrlRecord) (cur : Nat) : UrlWalk :=
  let (tmp, reads) := hostEnd mem cur
  ((urlFieldAt mem (fun r s => { r with host := some s }) cur tmp tmp h r).andThen fun h r next =>
    if (tmp - cur) % 65536 = 0 then urlFailAt h r else ⟨some (r, next), h, []⟩).after reads

/-- The port, after a colon. -/
def urlPortAt : Bytes → Heap → UrlRecord → Nat → UrlWalk :=
  urlBehindAt 58 (· ≠ 47) fun r s => { r with port := some s }

/-- The path, after its slash. -/
def urlPathAt (mem : Bytes) (h : Heap) (r : UrlRecord) (cur : Nat) : UrlWalk :=
  if byteAt mem cur ≠ 47 then (urlFailAt h r).after [cur]
  else
    let (tmp, reads) := skip mem (fun c => c ≠ 35 && c ≠ 63) (cur + 1)
    (urlFieldAt mem (fun r s => { r with path := some s }) (cur + 1) tmp tmp h r).after (cur :: reads)

/-- The query, after its question mark. -/
def urlQueryAt : Bytes → Heap → UrlRecord → Nat → UrlWalk :=
  urlBehindAt 63 (· ≠ 35) fun r s => { r with query := some s }

/-- The fragment, after its number sign. -/
def urlFragmentAt : Bytes → Heap → UrlRecord → Nat → UrlWalk :=
  urlBehindAt 35 (fun _ => true) fun r s => { r with fragment := some s }

/-- From the path on, when there is something left. -/
def urlTailAt (mem : Bytes) (h : Heap) (r : UrlRecord) (cur : Nat) : UrlWalk :=
  (if byteAt mem cur = 0 then ⟨some (r, cur), h, []⟩
  else ((urlPathAt mem h r cur).andThen (urlQueryAt mem)).andThen (urlFragmentAt mem)).after [cur]

/-- **`url_parse`** on memory. -/
def urlParseAt (h : Heap) (mem : Bytes) : UrlWalk :=
  match dmemCreate h sizeofUrlData with
  | (none, h) => ⟨none, h, []⟩
  | (some b, h) =>
    let r : UrlRecord := ⟨b, none, none, none, none, none, none, none, none⟩
    (((((urlSchemeAt mem h r 0).andThen (urlSlashesAt mem)).andThen (urlUserAt mem)).andThen
      (urlHostAt mem)).andThen (urlPortAt mem)).andThen (urlTailAt mem)

/-! ## The loops -/

section Loops

variable {mem t : Bytes}

/-- The string in memory is `t`. -/
def HasText (mem t : Bytes) : Prop := (0 : UInt8) ∉ t ∧ ∃ rest, mem = t ++ 0 :: rest

/-- A pointer inside the string is at its NUL or at one of its bytes. -/
theorem HasText.cases (ht : HasText mem t) {i : Nat} (hi : i ≤ t.length) :
    (t.drop i = [] ∧ byteAt mem i = 0) ∨
      ∃ c cur, t.drop i = c :: cur ∧ c ≠ 0 ∧ byteAt mem i = c ∧ i + 1 ≤ t.length ∧
        t.drop (i + 1) = cur := by
  obtain ⟨hz, rest, rfl⟩ := ht
  unfold byteAt
  rcases Nat.lt_or_eq_of_le hi with hlt | rfl
  · refine .inr ⟨t[i], t.drop (i + 1), List.drop_eq_getElem_cons hlt, ?_, ?_, hlt, rfl⟩
    · intro heq
      exact hz (heq ▸ List.getElem_mem hlt)
    · rw [List.getD_append _ _ _ _ hlt, List.getD_eq_getElem _ _ hlt]
  · refine .inl ⟨List.drop_length, ?_⟩
    rw [List.getD_append_right _ _ _ _ (Nat.le_refl _), Nat.sub_self]
    rfl

/-- What a loop `while ('\0' != *tmpstr && …) tmpstr++;` does. -/
structure Skips (t : Bytes) (go : UInt8 → Bool) (i : Nat) (x : Nat × List Nat) : Prop where
  le : i ≤ x.1
  inside : x.1 ≤ t.length
  taken : (t.drop i).takeWhile go = (t.drop i).take (x.1 - i)
  dropped : (t.drop i).dropWhile go = t.drop x.1
  reads : ∀ k ∈ x.2, k ≤ t.length

/-- **The loop stops inside the string.** -/
theorem skip_spec (ht : HasText mem t) (go : UInt8 → Bool) :
    ∀ n i, i + n = t.length → Skips t go i (skip mem go i) := by
  intro n
  induction n with
  | zero =>
    intro i hi
    have hnil : t.drop i = [] := List.drop_eq_nil_of_le (by omega)
    rcases ht.cases (i := i) (by omega) with ⟨-, hbyte⟩ | ⟨c, cur, hcons, -⟩
    · rw [skip, if_neg (by simp [hbyte])]
      refine ⟨Nat.le_refl _, by omega, by simp [hnil], by simp [hnil], ?_⟩
      intro k hk
      rw [List.mem_singleton.mp hk]
      omega
    · rw [hnil] at hcons
      cases hcons
  | succ n ih =>
    intro i hi
    have hread : ∀ {reads : List Nat}, (∀ k ∈ reads, k ≤ t.length) →
        ∀ k ∈ i :: reads, k ≤ t.length := fun hreads =>
      List.forall_mem_cons.mpr ⟨by omega, hreads⟩
    rcases ht.cases (i := i) (by omega) with ⟨hnil, hbyte⟩ | ⟨c, cur, hcons, hne, hbyte, hle, hcur⟩
    · rw [skip, if_neg (by simp [hbyte])]
      exact ⟨Nat.le_refl _, by omega, by simp [hnil], by simp [hnil], hread (by simp)⟩
    · by_cases hgo : go c = true
      · have hrest := ih (i + 1) (by omega)
        rw [skip, if_pos (by simp [hbyte, hne, hgo])]
        dsimp only
        refine ⟨by have := hrest.le; dsimp only; omega, hrest.inside, ?_, ?_, hread hrest.reads⟩
        · have hsucc : (skip mem go (i + 1)).1 - i = (skip mem go (i + 1)).1 - (i + 1) + 1 := by
            have := hrest.le
            omega
          have htaken := hrest.taken
          rw [hcur] at htaken
          rw [hcons, List.takeWhile_cons, if_pos hgo, htaken]
          dsimp only
          rw [hsucc, List.take_succ_cons]
        · have hdropped := hrest.dropped
          rw [hcur] at hdropped
          rw [hcons, List.dropWhile_cons, if_pos hgo, hdropped]
      · rw [skip, if_neg (by simp [hbyte, hgo])]
        refine ⟨Nat.le_refl _, by omega, ?_, ?_, hread (by simp)⟩
        · rw [hcons, List.takeWhile_cons, if_neg hgo]
          simp
        · rw [hcons, List.dropWhile_cons, if_neg hgo, ← hcons]

theorem skips (ht : HasText mem t) (go : UInt8 → Bool) {i : Nat} (hi : i ≤ t.length) :
    Skips t go i (skip mem go i) := skip_spec ht go (t.length - i) i (by omega)

/-- `strncpy` of bytes of the string. -/
theorem strncpyAt_spec (ht : HasText mem t) (n : Nat) : ∀ i, i + n ≤ t.length →
    strncpyAt mem i n = ((t.drop i).take n, List.range' i n) := by
  induction n with
  | zero => intro i hi; simp [strncpyAt]
  | succ n ih =>
    intro i hi
    rcases ht.cases (i := i) (by omega) with ⟨hnil, -⟩ | ⟨c, cur, hcons, hne, hbyte, hle, hcur⟩
    · rw [List.drop_eq_nil_iff] at hnil
      omega
    · rw [strncpyAt, hbyte, if_neg hne, ih (i + 1) (by omega), hcur, hcons, List.take_succ_cons,
        List.range'_succ]

/-- The check of the bytes of the string. -/
theorem allAt_spec (ht : HasText mem t) (p : UInt8 → Bool) (n : Nat) : ∀ i, i + n ≤ t.length →
    (allAt mem p i n).1 = ((t.drop i).take n).all p ∧ ∀ k ∈ (allAt mem p i n).2, k ≤ t.length := by
  induction n with
  | zero => intro i hi; simp [allAt]
  | succ n ih =>
    intro i hi
    rcases ht.cases (i := i) (by omega) with ⟨hnil, -⟩ | ⟨c, cur, hcons, hne, hbyte, hle, hcur⟩
    · rw [List.drop_eq_nil_iff] at hnil
      omega
    · obtain ⟨hall, hreads⟩ := ih (i + 1) (by omega)
      rw [hcur] at hall
      rw [allAt, hbyte, hcons, List.take_succ_cons, List.all_cons]
      by_cases hp : p c = true
      · rw [if_pos hp]
        dsimp only
        rw [hall, hp]
        exact ⟨rfl, List.forall_mem_cons.mpr ⟨by omega, hreads⟩⟩
      · rw [if_neg hp]
        rw [Bool.not_eq_true] at hp
        rw [hp]
        exact ⟨rfl, fun k hk => by rw [List.mem_singleton.mp hk]; omega⟩

end Loops

/-! ## The stages -/

/-- **A stage on memory does what the stage on texts does**, and reads inside the string. -/
structure UrlWalk.Shows (t : Bytes) (x : UrlStage) (w : UrlWalk) : Prop where
  stage : x = (w.out.map fun p => (p.1, t.drop p.2), w.heap)
  inside : ∀ p, w.out = some p → p.2 ≤ t.length
  reads : ∀ i ∈ w.reads, i ≤ t.length

section Stages

variable {mem t : Bytes} {h : Heap} {r : UrlRecord} {cur : Nat}

theorem shows_urlFail : (urlFailAt h r).Shows t (urlFail h r) :=
  ⟨rfl, fun _ heq => (by cases heq), fun _ hi => (by cases hi)⟩

theorem shows_some (hcur : cur ≤ t.length) {reads : List Nat} (hreads : ∀ i ∈ reads, i ≤ t.length) :
    UrlWalk.Shows t (some (r, t.drop cur), h) ⟨some (r, cur), h, reads⟩ :=
  ⟨rfl, fun _ heq => Option.some.inj heq ▸ hcur, hreads⟩

theorem UrlWalk.Shows.after {x : UrlStage} {w : UrlWalk} (hw : w.Shows t x) {reads : List Nat}
    (hreads : ∀ i ∈ reads, i ≤ t.length) : (w.after reads).Shows t x :=
  ⟨hw.stage, hw.inside, List.forall_mem_append.mpr ⟨hreads, hw.reads⟩⟩

theorem UrlWalk.Shows.andThen {x : UrlStage} {w : UrlWalk}
    {next : Heap → UrlRecord → Bytes → UrlStage} {nextAt : Heap → UrlRecord → Nat → UrlWalk}
    (hw : w.Shows t x)
    (hnext : ∀ h r cur, cur ≤ t.length → (nextAt h r cur).Shows t (next h r (t.drop cur))) :
    (w.andThen nextAt).Shows t (x.andThen next) := by
  obtain ⟨out, heap, reads⟩ := w
  obtain ⟨rfl, hinside, hreads⟩ := hw
  cases out with
  | none => exact ⟨rfl, fun _ heq => (by cases heq), hreads⟩
  | some p =>
    have hrest := hnext heap p.1 p.2 (hinside p rfl)
    exact ⟨hrest.stage, hrest.inside, List.forall_mem_append.mpr ⟨hreads, hrest.reads⟩⟩

/-- The component between two pointers. -/
theorem shows_urlField (ht : HasText mem t) {tmp next : Nat}
    (set : UrlRecord → UrlStr → UrlRecord) {field rest : Bytes} (hle : cur ≤ tmp)
    (htmp : tmp ≤ t.length) (hnext : next ≤ t.length)
    (hfield : field = (t.drop cur).take (tmp - cur)) (hrest : rest = t.drop next) :
    (urlFieldAt mem set cur tmp next h r).Shows t (urlField set field rest h r) := by
  have hlen : field.length = tmp - cur := by
    rw [hfield, List.length_take, List.length_drop]
    omega
  have hmod : (tmp - cur) % 65536 ≤ tmp - cur := Nat.mod_le _ _
  unfold urlFieldAt urlField
  dsimp only
  rw [hlen, strncpyAt_spec ht _ cur (by omega)]
  cases hc : dmemCreate h ((tmp - cur) % 65536 + 1) with
  | mk o h' =>
    cases o with
    | none => exact shows_urlFail
    | some b =>
      refine ⟨?_, fun _ heq => Option.some.inj heq ▸ hnext, fun i hi => ?_⟩
      · rw [hrest, hfield, List.take_take, Nat.min_eq_left hmod]
        rfl
      · have := List.mem_range'_1.mp hi
        omega

/-- A component behind its delimiter. -/
theorem shows_urlBehind (ht : HasText mem t) (hcur : cur ≤ t.length) {d : UInt8} (hd : d ≠ 0)
    {go : UInt8 → Bool} {set : UrlRecord → UrlStr → UrlRecord}
    {stage : Heap → UrlRecord → Bytes → UrlStage}
    (hsome : ∀ s, stage h r (d :: s) = urlField set (s.takeWhile go) (s.dropWhile go) h r)
    (hnone : ∀ s, s.head? ≠ some d → stage h r s = (some (r, s), h)) :
    (urlBehindAt d go set mem h r cur).Shows t (stage h r (t.drop cur)) := by
  have hread : ∀ i ∈ [cur], i ≤ t.length := fun i hi => by
    rw [List.mem_singleton.mp hi]
    exact hcur
  unfold urlBehindAt
  rcases ht.cases hcur with ⟨hnil, hbyte⟩ | ⟨c, s, hcons, hne, hbyte, hle, hs⟩
  · rw [hbyte, if_neg hd.symm, hnone _ (by rw [hnil]; rintro ⟨⟩)]
    exact shows_some hcur hread
  · rw [hbyte]
    by_cases hc : c = d
    · subst hc
      have hskip := skips ht go hle
      rw [if_pos rfl, hcons, hsome, ← hs]
      exact (shows_urlField ht set hskip.le hskip.inside hskip.inside hskip.taken
        hskip.dropped).after (List.forall_mem_cons.mpr ⟨hcur, hskip.reads⟩)
    · rw [if_neg hc, hnone _ (by rw [hcons]; exact fun heq => hc (Option.some.inj heq))]
      exact shows_some hcur hread

variable (h r)

theorem shows_urlScheme (ht : HasText mem t) (hcur : cur ≤ t.length) :
    (urlSchemeAt mem h r cur).Shows t (urlScheme h r (t.drop cur)) := by
  have hskip := skips ht (· ≠ 58) hcur
  unfold urlSchemeAt urlScheme
  cases hx : skip mem (· ≠ 58) cur with
  | mk tmp found =>
    rw [hx] at hskip
    dsimp only
    rcases ht.cases hskip.inside with ⟨hnil, hbyte⟩ | ⟨c, s, hcons, hne, hbyte, hle, hs⟩
    · -- no colon up to the NUL
      have hmem : (58 : UInt8) ∉ t.drop cur := by
        have hdrop := hskip.dropped
        rw [hnil, List.dropWhile_eq_nil_iff] at hdrop
        intro hmem
        simpa using hdrop 58 hmem
      rw [if_pos hbyte, if_neg hmem]
      exact shows_urlFail.after hskip.reads
    · have hdrop := hskip.dropped
      rw [hcons] at hdrop
      have hc : c = 58 := by
        have hhead := List.head?_dropWhile_not (· ≠ 58) (t.drop cur)
        rw [hdrop] at hhead
        simpa using hhead
      have hmem : (58 : UInt8) ∈ t.drop cur := by
        refine (List.dropWhile_sublist (· ≠ 58)).subset ?_
        rw [hdrop, hc]
        exact List.mem_cons_self
      have hlen : ((t.drop cur).takeWhile (· ≠ 58)).length = tmp - cur := by
        rw [hskip.taken, List.length_take, List.length_drop]
        have := hskip.inside
        dsimp only at this ⊢
        omega
      have hmod : (tmp - cur) % 65536 ≤ tmp - cur := Nat.mod_le _ _
      have hin := hskip.inside
      have hle' := hskip.le
      dsimp only at hin hle'
      obtain ⟨hall, hreads⟩ := allAt_spec ht isSchemeChar ((tmp - cur) % 65536) cur (by omega)
      have htake : ((t.drop cur).takeWhile (· ≠ 58)).take ((tmp - cur) % 65536) =
          (t.drop cur).take ((tmp - cur) % 65536) := by
        rw [hskip.taken, List.take_take, Nat.min_eq_left hmod]
      have hboth := List.forall_mem_append.mpr ⟨hskip.reads, hreads⟩
      rw [hbyte, if_neg hne, if_pos hmem, hlen, htake, hall]
      split
      · refine (shows_urlField ht _ hle' hin hle hskip.taken ?_).after hboth
        rw [hdrop, List.drop_one, List.tail_cons, hs]
      · exact shows_urlFail.after hboth

theorem shows_urlSlashes (ht : HasText mem t) (hcur : cur ≤ t.length) :
    (urlSlashesAt mem h r cur).Shows t (urlSlashes h r (t.drop cur)) := by
  unfold urlSlashesAt urlSlashes
  rcases ht.cases hcur with ⟨hnil, hbyte⟩ | ⟨c, s, hcons, hne, hbyte, hle, hs⟩
  · rw [hbyte, hnil, if_pos (by decide)]
    exact shows_urlFail.after (by simpa using hcur)
  · rw [hbyte, hcons]
    by_cases hc : c = 47
    · subst hc
      rw [if_neg (by simp)]
      have hreads : ∀ i ∈ [cur, cur + 1], i ≤ t.length := by
        simp only [List.mem_cons, List.not_mem_nil, or_false, forall_eq_or_imp, forall_eq]
        exact ⟨hcur, hle⟩
      rcases ht.cases hle with ⟨hnil, hbyte⟩ | ⟨c, s', hcons, hne, hbyte, hle', hs'⟩
      · rw [hbyte, if_pos (by decide), ← hs, hnil]
        exact shows_urlFail.after hreads
      · rw [hbyte, ← hs, hcons]
        by_cases hc : c = 47
        · subst hc
          rw [if_neg (by simp), ← hs']
          exact shows_some hle' hreads
        · rw [if_pos hc]
          split
          · rename_i heq
            exact absurd (List.cons.inj (List.cons.inj heq).2).1 hc
          · exact shows_urlFail.after hreads
    · rw [if_pos hc]
      split
      · rename_i heq
        exact absurd (List.cons.inj heq).1 hc
      · exact shows_urlFail.after (by simpa using hcur)

theorem shows_urlPassword (ht : HasText mem t) (hcur : cur ≤ t.length) :
    (urlPasswordAt mem h r cur).Shows t (urlPassword h r (t.drop cur)) := by
  refine shows_urlBehind ht hcur (by decide) (fun _ => rfl) fun s hs => ?_
  unfold urlPassword
  split
  · exact absurd rfl hs
  · rfl

theorem shows_urlPort (ht : HasText mem t) (hcur : cur ≤ t.length) :
    (urlPortAt mem h r cur).Shows t (urlPort h r (t.drop cur)) := by
  refine shows_urlBehind ht hcur (by decide) (fun _ => rfl) fun s hs => ?_
  unfold urlPort
  split
  · exact absurd rfl hs
  · rfl

theorem shows_urlQuery (ht : HasText mem t) (hcur : cur ≤ t.length) :
    (urlQueryAt mem h r cur).Shows t (urlQuery h r (t.drop cur)) := by
  refine shows_urlBehind ht hcur (by decide) (fun _ => rfl) fun s hs => ?_
  unfold urlQuery
  split
  · exact absurd rfl hs
  · rfl

theorem shows_urlFragment (ht : HasText mem t) (hcur : cur ≤ t.length) :
    (urlFragmentAt mem h r cur).Shows t (urlFragment h r (t.drop cur)) := by
  refine shows_urlBehind ht hcur (by decide) (fun s => ?_) fun s hs => ?_
  · have hall : ∀ c ∈ s, (fun _ => true) c = true := fun _ _ => rfl
    rw [List.takeWhile_eq_self_iff.mpr hall, List.dropWhile_eq_nil_iff.mpr hall]
    rfl
  · unfold urlFragment
    split
    · exact absurd rfl hs
    · rfl

theorem shows_urlAt (ht : HasText mem t) (hcur : cur ≤ t.length) :
    (urlAtAt mem h r cur).Shows t (urlAt h r (t.drop cur)) := by
  have hread : ∀ i ∈ [cur], i ≤ t.length := by simpa using hcur
  unfold urlAtAt urlAt
  rcases ht.cases hcur with ⟨hnil, hbyte⟩ | ⟨c, s, hcons, hne, hbyte, hle, hs⟩
  · rw [hbyte, hnil, if_pos (by decide)]
    exact shows_urlFail.after hread
  · rw [hbyte, hcons]
    by_cases hc : c = 64
    · subst hc
      rw [if_neg (by simp), ← hs]
      exact shows_some hle hread
    · rw [if_pos hc]
      split
      · rename_i heq
        exact absurd (List.cons.inj heq).1 hc
      · exact shows_urlFail.after hread

/-- An at sign comes before the next slash exactly when the loop stops at one. -/
theorem userpassFlag_eq (ht : HasText mem t) (hcur : cur ≤ t.length) :
    userpassFlag (t.drop cur) = true ↔
      byteAt mem (skip mem (fun c => !(c == 64 || c == 47)) cur).1 = 64 := by
  have hskip := skips ht (fun c => !(c == 64 || c == 47)) hcur
  unfold userpassFlag
  rw [List.find?_eq_head?_dropWhile_not, hskip.dropped, beq_iff_eq]
  rcases ht.cases hskip.inside with ⟨hnil, hbyte⟩ | ⟨c, s, hcons, hne, hbyte, -⟩
  · rw [hnil, hbyte]
    simp
  · rw [hcons, hbyte, List.head?_cons, Option.some.injEq]

theorem shows_urlUser (ht : HasText mem t) (hcur : cur ≤ t.length) :
    (urlUserAt mem h r cur).Shows t (urlUser h r (t.drop cur)) := by
  have hlook := skips ht (fun c => !(c == 64 || c == 47)) hcur
  have hname := skips ht (fun c => c ≠ 58 && c ≠ 64) hcur
  unfold urlUserAt urlUser
  dsimp only
  by_cases hflag : userpassFlag (t.drop cur) = true
  · rw [if_pos hflag, if_pos ((userpassFlag_eq ht hcur).mp hflag)]
    have hfield := shows_urlField (h := h) (r := r) ht (fun r s => { r with username := some s })
      hname.le hname.inside hname.inside hname.taken hname.dropped
    exact ((hfield.andThen fun h r _ hcur => shows_urlPassword h r ht hcur).andThen
      fun h r _ hcur => shows_urlAt h r ht hcur).after
        (List.forall_mem_append.mpr ⟨hlook.reads, hname.reads⟩)
  · rw [if_neg hflag, if_neg fun h64 => hflag ((userpassFlag_eq ht hcur).mpr h64)]
    exact shows_some hcur hlook.reads

/-- The end of the host. -/
theorem hostEnd_spec (ht : HasText mem t) (hcur : cur ≤ t.length) :
    cur ≤ (hostEnd mem cur).1 ∧ (hostEnd mem cur).1 ≤ t.length ∧
      hostField (t.drop cur) = (t.drop cur).take ((hostEnd mem cur).1 - cur) ∧
      ∀ i ∈ (hostEnd mem cur).2, i ≤ t.length := by
  have hhead : (t.drop cur).head? = some 91 ↔ byteAt mem cur = 91 := by
    rcases ht.cases hcur with ⟨hnil, hbyte⟩ | ⟨c, s, hcons, -, hbyte, -⟩
    · rw [hnil, hbyte]
      simp
    · rw [hcons, hbyte, List.head?_cons, Option.some.injEq]
  unfold hostEnd hostField
  by_cases hbracket : byteAt mem cur = 91
  · have hskip := skips ht (· ≠ 93) hcur
    rw [if_pos hbracket, if_pos (hhead.mpr hbracket)]
    dsimp only
    have hreads : ∀ i ∈ cur :: (skip mem (· ≠ 93) cur).2, i ≤ t.length :=
      List.forall_mem_cons.mpr ⟨hcur, hskip.reads⟩
    have hle := hskip.le
    rcases ht.cases hskip.inside with ⟨hnil, hbyte⟩ | ⟨c, s, hcons, hne, hbyte, hlt, hs⟩
    · rw [if_pos hbyte]
      refine ⟨hle, hskip.inside, ?_, hreads⟩
      rw [hskip.dropped, hnil, List.take_nil, List.append_nil, hskip.taken]
    · -- the bracket belongs to the host
      rw [hbyte, if_neg hne]
      refine ⟨by omega, hlt, ?_, hreads⟩
      have hsucc : (skip mem (· ≠ 93) cur).1 + 1 - cur = (skip mem (· ≠ 93) cur).1 - cur + 1 := by
        omega
      rw [hsucc, List.take_add, hskip.taken, hskip.dropped, List.drop_drop,
        Nat.add_sub_cancel' hle]
  · have hskip := skips ht (fun c => c ≠ 58 && c ≠ 47) hcur
    rw [if_neg hbracket, if_neg fun h91 => hbracket (hhead.mp h91)]
    exact ⟨hskip.le, hskip.inside, hskip.taken, List.forall_mem_cons.mpr ⟨hcur, hskip.reads⟩⟩

theorem shows_urlHost (ht : HasText mem t) (hcur : cur ≤ t.length) :
    (urlHostAt mem h r cur).Shows t (urlHost h r (t.drop cur)) := by
  obtain ⟨hle, hinside, hfield, hreads⟩ := hostEnd_spec ht hcur
  have hlen : (hostField (t.drop cur)).length = (hostEnd mem cur).1 - cur := by
    rw [hfield, List.length_take, List.length_drop]
    omega
  unfold urlHostAt urlHost
  dsimp only
  rw [hlen]
  refine ((shows_urlField ht _ hle hinside hinside hfield ?_).andThen fun h r cur hcur => ?_).after
    hreads
  · rw [List.drop_drop, Nat.add_sub_cancel' hle]
  · split
    · exact shows_urlFail
    · exact shows_some hcur (by simp)

theorem shows_urlPath (ht : HasText mem t) (hcur : cur ≤ t.length) :
    (urlPathAt mem h r cur).Shows t (urlPath h r (t.drop cur)) := by
  have hread : ∀ i ∈ [cur], i ≤ t.length := by simpa using hcur
  unfold urlPathAt urlPath
  rcases ht.cases hcur with ⟨hnil, hbyte⟩ | ⟨c, s, hcons, hne, hbyte, hle, hs⟩
  · rw [hbyte, hnil, if_pos (by decide)]
    exact shows_urlFail.after hread
  · rw [hbyte, hcons]
    by_cases hc : c = 47
    · subst hc
      have hskip := skips ht (fun c => c ≠ 35 && c ≠ 63) hle
      rw [if_neg (by simp), ← hs]
      exact (shows_urlField ht _ hskip.le hskip.inside hskip.inside hskip.taken
        hskip.dropped).after (List.forall_mem_cons.mpr ⟨hcur, hskip.reads⟩)
    · rw [if_pos hc]
      split
      · rename_i heq
        exact absurd (List.cons.inj heq).1 hc
      · exact shows_urlFail.after hread

theorem shows_urlTail (ht : HasText mem t) (hcur : cur ≤ t.length) :
    (urlTailAt mem h r cur).Shows t (urlTail h r (t.drop cur)) := by
  refine UrlWalk.Shows.after ?_ (by simpa using hcur)
  unfold urlTail
  rcases ht.cases hcur with ⟨hnil, hbyte⟩ | ⟨c, s, hcons, hne, hbyte, -⟩
  · rw [if_pos hbyte, if_pos hnil]
    exact shows_some hcur (by simp)
  · rw [if_neg (by rw [hcons]; exact List.cons_ne_nil _ _), if_neg (by rw [hbyte]; exact hne)]
    exact ((shows_urlPath h r ht hcur).andThen fun h r _ hcur => shows_urlQuery h r ht hcur).andThen
      fun h r _ hcur => shows_urlFragment h r ht hcur

end Stages

/-! ## The function -/

theorem hasText_cstr (text rest : Bytes) :
    HasText (text ++ 0 :: rest) (cstr (text ++ 0 :: rest)) := by
  refine ⟨zero_notMem_cstr _, ?_⟩
  have hsplit := List.takeWhile_append_dropWhile (p := (· ≠ (0 : UInt8))) (l := text ++ 0 :: rest)
  rcases dropWhile_eq_nil_or (p := (· ≠ 0)) (text ++ 0 :: rest) with hd | ⟨c, s, hd, hc⟩
  · rw [List.dropWhile_eq_nil_iff] at hd
    simpa using hd 0 (by simp)
  · obtain rfl : c = 0 := by simpa using hc
    rw [hd] at hsplit
    exact ⟨s, hsplit.symm⟩

/-- **`url_parse` on memory is `url_parse` on the string**, and reads inside it. -/
theorem shows_urlParse {mem : Bytes} (ht : HasText mem (cstr mem)) (h : Heap) :
    urlParse h mem = ((urlParseAt h mem).out.map Prod.fst, (urlParseAt h mem).heap) ∧
      ∀ i ∈ (urlParseAt h mem).reads, i ≤ (cstr mem).length := by
  unfold urlParse urlParseAt
  cases hc : dmemCreate h sizeofUrlData with
  | mk o h' =>
    cases o with
    | none => exact ⟨rfl, fun _ hi => by cases hi⟩
    | some b =>
      dsimp only
      have hscheme := shows_urlScheme h' ⟨b, none, none, none, none, none, none, none, none⟩ ht
        (Nat.zero_le _)
      have huser := (hscheme.andThen fun h r _ hcur => shows_urlSlashes h r ht hcur).andThen
        fun h r _ hcur => shows_urlUser h r ht hcur
      have hport := (huser.andThen fun h r _ hcur => shows_urlHost h r ht hcur).andThen
        fun h r _ hcur => shows_urlPort h r ht hcur
      have hall := hport.andThen fun h r _ hcur => shows_urlTail h r ht hcur
      rw [List.drop_zero] at hall
      refine ⟨?_, hall.reads⟩
      rw [hall.stage, Option.map_map]
      rfl

/-- **A run is safe**: with NULL the heap is as it was, with a record it is so once the record is
freed, and nothing behind the NUL has been read. -/
structure UrlSafe (h : Heap) (mem : Bytes) : Prop where
  failed : (urlParseAt h mem).out = none → (urlParseAt h mem).heap.Exactly h.misuse h.live
  freed : ∀ r cur, (urlParseAt h mem).out = some (r, cur) →
    (urlParseFree (urlParseAt h mem).heap r).Exactly h.misuse h.live
  inside : ∀ i ∈ (urlParseAt h mem).reads, i ≤ (cstr mem).length

/-- **Every run of `url_parse` is safe**: on any string, whatever lies behind its NUL, and whichever
allocations fail. -/
theorem urlParse_safe (h : Heap) (text rest : Bytes) : UrlSafe h (text ++ 0 :: rest) := by
  obtain ⟨heq, hreads⟩ := shows_urlParse (hasText_cstr text rest) h
  have hstart : h.Exactly h.misuse h.live := ⟨rfl, rfl⟩
  obtain ⟨hfailed, hheld⟩ := exactly_urlParse hstart (text ++ 0 :: rest)
  rw [heq] at hfailed hheld
  refine ⟨fun hnone => hfailed (by rw [hnone]; rfl), fun r cur hsome => ?_, hreads⟩
  exact (hheld r (by rw [hsome]; rfl)).urlParseFree

end Rastreo.Net
