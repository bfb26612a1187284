import Rastreo.Net.Lists
import Rastreo.Net.WsFrames

/-!
# URLs (`url_parser.c`)

`url_parse` reads a URL from left to right and copies each component into a block of its own; when
an allocation fails or a delimiter is missing, what was allocated is released and NULL returned.
A field is as long as a 16-bit `len` says.

* The model goes stage by stage: a stage takes the record and the text still to be read
  (`curstr`; the NUL is the end of the list).
* `scan` reads the same components with no allocation and no bound on their length, and
  `UrlParts.text` puts them together again: `text_scan` says that no byte is lost.
* `urlParse_scan`: the record holds the components, each cut to a 16-bit length. So for a URL of at
  most 65535 bytes the record recomposes to the URL (`recompose_urlParse`).
-/

namespace Rastreo.Net

open Rastreo.Lib

/-! ## The parser -/

/-- A string in a block of its own. -/
structure UrlStr where
  block : Block
  text : Bytes
  deriving DecidableEq, Repr

/-- `t_URL_DATA`; a field is `none` while its pointer is NULL. -/
structure UrlRecord where
  block : Block
  scheme : Option UrlStr
  host : Option UrlStr
  port : Option UrlStr
  path : Option UrlStr
  query : Option UrlStr
  fragment : Option UrlStr
  username : Option UrlStr
  password : Option UrlStr
  deriving DecidableEq, Repr

/-- `sizeof (t_URL_DATA)`. -/
def sizeofUrlData : Nat := 32

/-- `url_parse_free`. -/
def urlParseFree (h : Heap) (r : UrlRecord) : Heap :=
  let blocks := [r.scheme, r.host, r.port, r.path, r.query, r.fragment, r.username, r.password]
  dmemRelease (blocks.foldl (fun h s => dmemRelease h (s.map UrlStr.block)) h) (some r.block)

/-- `isalpha`. -/
def isAlpha (c : UInt8) : Bool := (65 ≤ c && c ≤ 90) || (97 ≤ c && c ≤ 122)

/-- `tolower`. -/
def toLower (c : UInt8) : UInt8 := if 65 ≤ c && c ≤ 90 then c + 32 else c

/-- `_is_scheme_char`. -/
def isSchemeChar (c : UInt8) : Bool := isAlpha c || c == 43 || c == 45 || c == 46

/-- What a stage gives: the record and what is left to read, or NULL. -/
abbrev UrlStage := Option (UrlRecord × Bytes) × Heap

/-- The next stage. -/
def UrlStage.andThen (x : UrlStage) (k : Heap → UrlRecord → Bytes → UrlStage) : UrlStage :=
  match x with
  | (none, h) => (none, h)
  | (some (r, cur), h) => k h r cur

/-- `url_parse_free (purl); return NULL;` -/
def urlFail (h : Heap) (r : UrlRecord) : UrlStage := (none, urlParseFree h r)

/-- A component copied into a block of its own. -/
def urlField (set : UrlRecord → UrlStr → UrlRecord) (field rest : Bytes) (h : Heap)
    (r : UrlRecord) : UrlStage :=
  let len := field.length % 65536
  match dmemCreate h (len + 1) with
  | (none, h) => urlFail h r
  | (some b, h) => (some (set r ⟨b, field.take len⟩, rest), h)

/-- The scheme, up to the first colon. -/
def urlScheme (h : Heap) (r : UrlRecord) (cur : Bytes) : UrlStage :=
  if 58 ∈ cur then
    let field := cur.takeWhile (· ≠ 58)
    if (field.take (field.length % 65536)).all isSchemeChar then
      urlField (fun r s => { r with scheme := some ⟨s.block, s.text.map toLower⟩ }) field
        ((cur.dropWhile (· ≠ 58)).drop 1) h r
    else urlFail h r
  else urlFail h r

/-- Eat "//". -/
def urlSlashes (h : Heap) (r : UrlRecord) : Bytes → UrlStage
  | 47 :: 47 :: cur => (some (r, cur), h)
  | _ => urlFail h r

/-- `userpass_flag`: an at sign comes before the next slash. -/
def userpassFlag (cur : Bytes) : Bool := (cur.find? fun c => c == 64 || c == 47) == some 64

/-- The password, when the user name ended at a colon. -/
def urlPassword (h : Heap) (r : UrlRecord) : Bytes → UrlStage
  | 58 :: cur =>
    urlField (fun r s => { r with password := some s }) (cur.takeWhile (· ≠ 64))
      (cur.dropWhile (· ≠ 64)) h r
  | cur => (some (r, cur), h)

/-- Skip the at sign. -/
def urlAt (h : Heap) (r : UrlRecord) : Bytes → UrlStage
  | 64 :: cur => (some (r, cur), h)
  | _ => urlFail h r

/-- User name and password. -/
def urlUser (h : Heap) (r : UrlRecord) (cur : Bytes) : UrlStage :=
  if userpassFlag cur then
    ((urlField (fun r s => { r with username := some s })
      (cur.takeWhile fun c => c ≠ 58 && c ≠ 64) (cur.dropWhile fun c => c ≠ 58 && c ≠ 64) h
      r).andThen urlPassword).andThen urlAt
  else (some (r, cur), h)

/-- The host at the front: a bracketed address to its closing bracket, else up to a delimiter. -/
def hostField (cur : Bytes) : Bytes :=
  if cur.head? = some 91 then
    cur.takeWhile (· ≠ 93) ++ (cur.dropWhile (· ≠ 93)).take 1
  else cur.takeWhile fun c => c ≠ 58 && c ≠ 47

/-- The host; it must not be empty. -/
def urlHost (h : Heap) (r : UrlRecord) (cur : Bytes) : UrlStage :=
  let field := hostField cur
  (urlField (fun r s => { r with host := some s }) field (cur.drop field.length) h r).andThen
    fun h r cur => if field.length % 65536 = 0 then urlFail h r else (some (r, cur), h)

/-- The port, after a colon. -/
def urlPort (h : Heap) (r : UrlRecord) : Bytes → UrlStage
  | 58 :: cur =>
    urlField (fun r s => { r with port := some s }) (cur.takeWhile (· ≠ 47))
      (cur.dropWhile (· ≠ 47)) h r
  | cur => (some (r, cur), h)

/-- The path, after its slash. -/
def urlPath (h : Heap) (r : UrlRecord) : Bytes → UrlStage
  | 47 :: cur =>
    urlField (fun r s => { r with path := some s }) (cur.takeWhile fun c => c ≠ 35 && c ≠ 63)
      (cur.dropWhile fun c => c ≠ 35 && c ≠ 63) h r
  | _ => urlFail h r

/-- The query, after its question mark. -/
def urlQuery (h : Heap) (r : UrlRecord) : Bytes → UrlStage
  | 63 :: cur =>
    urlField (fun r s => { r with query := some s }) (cur.takeWhile (· ≠ 35))
      (cur.dropWhile (· ≠ 35)) h r
  | cur => (some (r, cur), h)

/-- The fragment, after its number sign. -/
def urlFragment (h : Heap) (r : UrlRecord) : Bytes → UrlStage
  | 35 :: cur => urlField (fun r s => { r with fragment := some s }) cur [] h r
  | cur => (some (r, cur), h)

/-- From the path on, when there is something left. -/
def urlTail (h : Heap) (r : UrlRecord) (cur : Bytes) : UrlStage :=
  if cur = [] then (some (r, cur), h)
  else ((urlPath h r cur).andThen urlQuery).andThen urlFragment

/-- **`url_parse`**. -/
def urlParse (h : Heap) (url : Bytes) : Option UrlRecord × Heap :=
  match dmemCreate h sizeofUrlData with
  | (none, h) => (none, h)
  | (some b, h) =>
    let r : UrlRecord := ⟨b, none, none, none, none, none, none, none, none⟩
    let x := (((((urlScheme h r (cstr url)).andThen urlSlashes).andThen urlUser).andThen
      urlHost).andThen urlPort).andThen urlTail
    (x.1.map Prod.fst, x.2)

/-! ## The components of a URL -/

/-- The components of a URL, as texts. -/
structure UrlParts where
  scheme : Bytes
  username : Option Bytes
  password : Option Bytes
  host : Bytes
  port : Option Bytes
  path : Option Bytes
  query : Option Bytes
  fragment : Option Bytes
  deriving DecidableEq, Repr

/-- A component behind its delimiter. -/
def behind (d : UInt8) : Option Bytes → Bytes
  | some s => d :: s
  | none => []

/-- User name and password, up to the at sign. -/
def userinfo : Option Bytes → Option Bytes → Bytes
  | some u, p => u ++ behind 58 p ++ [64]
  | none, _ => []

/-- What stands after the authority. -/
def target : Option Bytes → Option Bytes → Option Bytes → Bytes
  | some p, q, f => 47 :: p ++ behind 63 q ++ behind 35 f
  | none, _, _ => []

/-- The components put together. -/
def UrlParts.text (p : UrlParts) : Bytes :=
  p.scheme ++ [58, 47, 47] ++ userinfo p.username p.password ++ p.host ++ behind 58 p.port ++
    target p.path p.query p.fragment

/-- What a length of 16 bits keeps of a text. -/
def cut16 (s : Bytes) : Bytes := s.take (s.length % 65536)

/-- The components cut to 16-bit lengths. -/
def UrlParts.cut (p : UrlParts) : UrlParts where
  scheme := cut16 p.scheme
  username := p.username.map cut16
  password := p.password.map cut16
  host := cut16 p.host
  port := p.port.map cut16
  path := p.path.map cut16
  query := p.query.map cut16
  fragment := p.fragment.map cut16

theorem cut16_of_length {s : Bytes} (h : s.length < 65536) : cut16 s = s := by
  rw [cut16, Nat.mod_eq_of_lt h, List.take_length]

/-- The texts of a record; the two mandatory ones are there in a record that `url_parse` returns. -/
def UrlRecord.parts (r : UrlRecord) : UrlParts where
  scheme := (r.scheme.map UrlStr.text).getD []
  username := r.username.map UrlStr.text
  password := r.password.map UrlStr.text
  host := (r.host.map UrlStr.text).getD []
  port := r.port.map UrlStr.text
  path := r.path.map UrlStr.text
  query := r.query.map UrlStr.text
  fragment := r.fragment.map UrlStr.text

/-! ## Reading the components -/

/-- The scheme, up to the first colon. -/
def scanScheme (cur : Bytes) : Option (Bytes × Bytes) :=
  if 58 ∈ cur then
    some (cur.takeWhile (· ≠ 58), (cur.dropWhile (· ≠ 58)).drop 1)
  else none

/-- The two slashes. -/
def scanSlashes : Bytes → Option Bytes
  | 47 :: 47 :: cur => some cur
  | _ => none

/-- The password, when the user name ended at a colon. -/
def scanPassword : Bytes → Option Bytes × Bytes
  | 58 :: cur => (some (cur.takeWhile (· ≠ 64)), cur.dropWhile (· ≠ 64))
  | cur => (none, cur)

/-- The at sign. -/
def scanAt : Bytes → Option Bytes
  | 64 :: cur => some cur
  | _ => none

/-- User name, password, and the rest. -/
def scanUser (cur : Bytes) : Option (Option Bytes × Option Bytes × Bytes) :=
  if userpassFlag cur then
    let x := scanPassword (cur.dropWhile fun c => c ≠ 58 && c ≠ 64)
    (scanAt x.2).map fun rest => (some (cur.takeWhile fun c => c ≠ 58 && c ≠ 64), x.1, rest)
  else some (none, none, cur)

/-- The port. -/
def scanPort : Bytes → Option Bytes × Bytes
  | 58 :: cur => (some (cur.takeWhile (· ≠ 47)), cur.dropWhile (· ≠ 47))
  | cur => (none, cur)

/-- The query. -/
def scanQuery : Bytes → Option Bytes × Bytes
  | 63 :: cur => (some (cur.takeWhile (· ≠ 35)), cur.dropWhile (· ≠ 35))
  | cur => (none, cur)

/-- The fragment. -/
def scanFragment : Bytes → Option Bytes × Bytes
  | 35 :: cur => (some cur, [])
  | cur => (none, cur)

/-- Path, query and fragment. -/
def scanTail : Bytes → Option (Option Bytes × Option Bytes × Option Bytes)
  | [] => some (none, none, none)
  | 47 :: cur =>
    let x := scanQuery (cur.dropWhile fun c => c ≠ 35 && c ≠ 63)
    some (some (cur.takeWhile fun c => c ≠ 35 && c ≠ 63), x.1, (scanFragment x.2).1)
  | _ => none

/-- **The components of a URL**, from left to right. -/
def scan (url : Bytes) : Option UrlParts := do
  let (scheme, cur) ← scanScheme url
  let cur ← scanSlashes cur
  let (username, password, cur) ← scanUser cur
  let x := scanPort (cur.drop (hostField cur).length)
  let (path, query, fragment) ← scanTail x.2
  return ⟨scheme, username, password, hostField cur, x.1, path, query, fragment⟩

/-! ### No byte is lost -/

/-- What `dropWhile` stops at. -/
theorem dropWhile_eq_nil_or {p : UInt8 → Bool} (s : Bytes) :
    s.dropWhile p = [] ∨ ∃ c t, s.dropWhile p = c :: t ∧ p c = false := by
  cases h : s.dropWhile p with
  | nil => exact .inl rfl
  | cons c t =>
    refine .inr ⟨c, t, rfl, ?_⟩
    have := List.head?_dropWhile_not p s
    rw [h] at this
    simpa using this

theorem text_scanScheme {cur s rest : Bytes} (h : scanScheme cur = some (s, rest)) :
    cur = s ++ 58 :: rest := by
  unfold scanScheme at h
  split at h
  · rename_i hmem
    obtain ⟨rfl, rfl⟩ := Prod.mk.inj (Option.some.inj h)
    rcases dropWhile_eq_nil_or (p := (· ≠ 58)) cur with hd | ⟨c, t, hd, hc⟩
    · rw [List.dropWhile_eq_nil_iff] at hd
      simpa using hd 58 hmem
    · obtain rfl : c = 58 := by simpa using hc
      conv_lhs => rw [← List.takeWhile_append_dropWhile (p := (· ≠ 58)) (l := cur)]
      rw [hd]
      rfl
  · cases h

theorem text_scanSlashes {cur rest : Bytes} (h : scanSlashes cur = some rest) :
    cur = 47 :: 47 :: rest := by
  unfold scanSlashes at h
  split at h
  · rw [Option.some.inj h]
  · cases h

theorem text_scanPassword (cur : Bytes) :
    cur = behind 58 (scanPassword cur).1 ++ (scanPassword cur).2 := by
  unfold scanPassword
  split
  · simp [behind, List.takeWhile_append_dropWhile]
  · rfl

theorem text_scanAt {cur rest : Bytes} (h : scanAt cur = some rest) : cur = 64 :: rest := by
  unfold scanAt at h
  split at h
  · rw [Option.some.inj h]
  · cases h

theorem text_scanUser {cur rest : Bytes} {u p : Option Bytes}
    (h : scanUser cur = some (u, p, rest)) : cur = userinfo u p ++ rest := by
  unfold scanUser at h
  split at h
  · obtain ⟨rest', hat, heq⟩ := Option.map_eq_some_iff.mp h
    obtain ⟨rfl, hrest⟩ := Prod.mk.inj heq
    obtain ⟨rfl, rfl⟩ := Prod.mk.inj hrest
    have hp := text_scanPassword (cur.dropWhile fun c => c ≠ 58 && c ≠ 64)
    rw [text_scanAt hat] at hp
    conv_lhs =>
      rw [← List.takeWhile_append_dropWhile (p := fun c => c ≠ 58 && c ≠ 64) (l := cur), hp]
    simp [userinfo]
  · obtain ⟨rfl, heq⟩ := Prod.mk.inj (Option.some.inj h)
    obtain ⟨rfl, rfl⟩ := Prod.mk.inj heq
    rfl

theorem text_hostField (cur : Bytes) : cur = hostField cur ++ cur.drop (hostField cur).length := by
  have hpre : hostField cur <+: cur := by
    unfold hostField
    split
    · have := List.takeWhile_append_dropWhile (p := (· ≠ 93)) (l := cur)
      conv_rhs => rw [← this]
      exact List.prefix_append_right_inj _ |>.mpr (List.take_prefix 1 _)
    · exact List.takeWhile_prefix _
  exact (List.prefix_iff_eq_append.mp hpre).symm

theorem text_scanPort (cur : Bytes) : cur = behind 58 (scanPort cur).1 ++ (scanPort cur).2 := by
  unfold scanPort
  split
  · simp [behind, List.takeWhile_append_dropWhile]
  · rfl

theorem text_scanQuery (cur : Bytes) : cur = behind 63 (scanQuery cur).1 ++ (scanQuery cur).2 := by
  unfold scanQuery
  split
  · simp [behind, List.takeWhile_append_dropWhile]
  · rfl

theorem text_scanFragment {cur : Bytes} (h : ∀ c, cur.head? = some c → c = 35) :
    cur = behind 35 (scanFragment cur).1 := by
  cases cur with
  | nil => rfl
  | cons c cur =>
    obtain rfl := h c rfl
    rfl

/-- After the query comes a number sign or nothing. -/
theorem head_scanQuery {cur : Bytes} (h : ∀ c, cur.head? = some c → c = 35 ∨ c = 63) :
    ∀ c, (scanQuery cur).2.head? = some c → c = 35 := by
  intro c hc
  unfold scanQuery at hc
  split at hc
  · have := List.head?_dropWhile_not (· ≠ 35) ‹Bytes›
    rw [hc] at this
    simpa using this
  · rename_i hne
    cases cur with
    | nil => cases hc
    | cons d cur =>
      obtain rfl := Option.some.inj hc
      rcases h d rfl with rfl | rfl
      · rfl
      · exact absurd rfl (hne cur)

theorem text_scanTail {cur : Bytes} {p q f : Option Bytes} (h : scanTail cur = some (p, q, f)) :
    cur = target p q f := by
  unfold scanTail at h
  split at h
  · obtain ⟨rfl, -⟩ := Prod.mk.inj (Option.some.inj h)
    rfl
  · rename_i cur
    obtain ⟨rfl, heq⟩ := Prod.mk.inj (Option.some.inj h)
    obtain ⟨rfl, rfl⟩ := Prod.mk.inj heq
    have hq := text_scanQuery (cur.dropWhile fun c => c ≠ 35 && c ≠ 63)
    have hhead := @head_scanQuery (cur.dropWhile fun c => c ≠ 35 && c ≠ 63) (by
      intro c hc
      have := List.head?_dropWhile_not (fun c => c ≠ 35 && c ≠ 63) cur
      rw [hc] at this
      simp at this
      by_cases h35 : c = 35
      · exact .inl h35
      · exact .inr (this h35))
    have hf := text_scanFragment hhead
    rw [target, List.cons_append, List.cons_append, List.append_assoc, ← hf, ← hq,
      List.takeWhile_append_dropWhile]
  · cases h

/-- **The components of a URL, put together, are the URL.** -/
theorem text_scan {url : Bytes} {p : UrlParts} (h : scan url = some p) : p.text = url := by
  unfold scan at h
  simp only [Option.bind_eq_bind, Option.bind_eq_some_iff, Option.pure_def, Option.some.injEq,
    Prod.exists] at h
  obtain ⟨s, cur₁, h₁, cur₂, h₂, u, pw, cur₃, h₃, pa, q, f, h₄, rfl⟩ := h
  have hs := text_scanScheme h₁
  rw [text_scanSlashes h₂, text_scanUser h₃, text_hostField cur₃,
    text_scanPort (cur₃.drop (hostField cur₃).length), text_scanTail h₄] at hs
  rw [hs]
  simp [UrlParts.text]

/-! ## The record holds the components -/

section Refinement

variable {h h' : Heap} {r r' : UrlRecord} {cur cur' : Bytes}

theorem andThen_eq_some {x : UrlStage} {k : Heap → UrlRecord → Bytes → UrlStage} {y : UrlRecord × Bytes}
    (hx : x.andThen k = (some y, h')) :
    ∃ r cur h, x = (some (r, cur), h) ∧ k h r cur = (some y, h') := by
  obtain ⟨o, h⟩ := x
  cases o with
  | none => cases hx
  | some z => exact ⟨z.1, z.2, h, rfl, hx⟩

theorem stage_eq_some {r₁ : UrlRecord} {cur₁ : Bytes} {h₁ : Heap}
    (hx : ((some (r₁, cur₁), h₁) : UrlStage) = (some (r', cur'), h')) : r₁ = r' ∧ cur₁ = cur' :=
  Prod.mk.inj (Option.some.inj (Prod.mk.inj hx).1)

/-- A field that is copied. -/
theorem urlField_eq_some {set : UrlRecord → UrlStr → UrlRecord} {field rest : Bytes}
    (hx : urlField set field rest h r = (some (r', cur'), h')) :
    cur' = rest ∧ ∃ b, r' = set r ⟨b, cut16 field⟩ := by
  unfold urlField urlFail at hx
  simp only at hx
  split at hx
  · cases hx
  · rename_i b h₁ _
    obtain ⟨rfl, rfl⟩ := stage_eq_some hx
    exact ⟨rfl, b, rfl⟩

theorem cut16_map (f : UInt8 → UInt8) (s : Bytes) : (cut16 s).map f = cut16 (s.map f) := by
  simp [cut16, List.map_take]

theorem urlScheme_scan (hx : urlScheme h r cur = (some (r', cur'), h')) :
    ∃ s, scanScheme cur = some (s, cur') ∧
      r'.parts = { r.parts with scheme := cut16 (s.map toLower) } := by
  unfold urlScheme at hx
  unfold scanScheme
  split at hx
  · rename_i hmem
    rw [if_pos hmem]
    simp only at hx
    split at hx
    · obtain ⟨rfl, b, rfl⟩ := urlField_eq_some hx
      exact ⟨_, rfl, by simp [UrlRecord.parts, cut16_map]⟩
    · cases hx
  · cases hx

theorem urlSlashes_scan (hx : urlSlashes h r cur = (some (r', cur'), h')) :
    scanSlashes cur = some cur' ∧ r' = r := by
  unfold urlSlashes urlFail at hx
  split at hx
  · obtain ⟨rfl, rfl⟩ := stage_eq_some hx
    exact ⟨rfl, rfl⟩
  · cases hx

theorem urlPassword_scan (hx : urlPassword h r cur = (some (r', cur'), h'))
    (hr : r.password = none) :
    (scanPassword cur).2 = cur' ∧
      r'.parts = { r.parts with password := (scanPassword cur).1.map cut16 } := by
  unfold urlPassword at hx
  split at hx
  · obtain ⟨rfl, b, rfl⟩ := urlField_eq_some hx
    exact ⟨rfl, rfl⟩
  · rename_i hne
    have hscan : scanPassword cur = (none, cur) := by
      unfold scanPassword
      split
      · exact absurd rfl (hne _)
      · rfl
    obtain ⟨rfl, rfl⟩ := stage_eq_some hx
    rw [hscan]
    exact ⟨rfl, by simp [UrlRecord.parts, hr]⟩

theorem urlAt_scan (hx : urlAt h r cur = (some (r', cur'), h')) :
    scanAt cur = some cur' ∧ r' = r := by
  unfold urlAt urlFail at hx
  split at hx
  · obtain ⟨rfl, rfl⟩ := stage_eq_some hx
    exact ⟨rfl, rfl⟩
  · cases hx

theorem urlUser_scan (hx : urlUser h r cur = (some (r', cur'), h')) (hu : r.username = none)
    (hp : r.password = none) :
    ∃ u p, scanUser cur = some (u, p, cur') ∧
      r'.parts = { r.parts with username := u.map cut16, password := p.map cut16 } := by
  unfold urlUser at hx
  unfold scanUser
  split at hx
  · rename_i hflag
    rw [if_pos hflag]
    obtain ⟨r₂, cur₂, h₂, hx₂, hat⟩ := andThen_eq_some hx
    obtain ⟨r₁, cur₁, h₁, hx₁, hpw⟩ := andThen_eq_some hx₂
    obtain ⟨rfl, b, rfl⟩ := urlField_eq_some hx₁
    obtain ⟨rfl, hparts⟩ := urlPassword_scan hpw hp
    obtain ⟨hscan, rfl⟩ := urlAt_scan hat
    simp only [hscan, Option.map_some]
    exact ⟨_, _, rfl, hparts⟩
  · rename_i hflag
    rw [if_neg hflag]
    obtain ⟨rfl, rfl⟩ := stage_eq_some hx
    exact ⟨none, none, rfl, by simp [UrlRecord.parts, hu, hp]⟩

theorem urlHost_scan (hx : urlHost h r cur = (some (r', cur'), h')) :
    cur.drop (hostField cur).length = cur' ∧
      r'.parts = { r.parts with host := cut16 (hostField cur) } := by
  unfold urlHost at hx
  obtain ⟨r₁, cur₁, h₁, hx₁, hx⟩ := andThen_eq_some hx
  obtain ⟨rfl, b, rfl⟩ := urlField_eq_some hx₁
  split at hx
  · cases hx
  · obtain ⟨rfl, rfl⟩ := stage_eq_some hx
    exact ⟨rfl, rfl⟩

theorem urlPort_scan (hx : urlPort h r cur = (some (r', cur'), h')) (hr : r.port = none) :
    (scanPort cur).2 = cur' ∧ r'.parts = { r.parts with port := (scanPort cur).1.map cut16 } := by
  unfold urlPort at hx
  split at hx
  · obtain ⟨rfl, b, rfl⟩ := urlField_eq_some hx
    exact ⟨rfl, rfl⟩
  · rename_i hne
    have hscan : scanPort cur = (none, cur) := by
      unfold scanPort
      split
      · exact absurd rfl (hne _)
      · rfl
    obtain ⟨rfl, rfl⟩ := stage_eq_some hx
    rw [hscan]
    exact ⟨rfl, by simp [UrlRecord.parts, hr]⟩

theorem urlQuery_scan (hx : urlQuery h r cur = (some (r', cur'), h')) (hr : r.query = none) :
    (scanQuery cur).2 = cur' ∧
      r'.parts = { r.parts with query := (scanQuery cur).1.map cut16 } := by
  unfold urlQuery at hx
  split at hx
  · obtain ⟨rfl, b, rfl⟩ := urlField_eq_some hx
    exact ⟨rfl, rfl⟩
  · rename_i hne
    have hscan : scanQuery cur = (none, cur) := by
      unfold scanQuery
      split
      · exact absurd rfl (hne _)
      · rfl
    obtain ⟨rfl, rfl⟩ := stage_eq_some hx
    rw [hscan]
    exact ⟨rfl, by simp [UrlRecord.parts, hr]⟩

theorem urlFragment_scan (hx : urlFragment h r cur = (some (r', cur'), h'))
    (hr : r.fragment = none) :
    r'.parts = { r.parts with fragment := (scanFragment cur).1.map cut16 } := by
  unfold urlFragment at hx
  split at hx
  · obtain ⟨rfl, b, rfl⟩ := urlField_eq_some hx
    rfl
  · rename_i hne
    have hscan : scanFragment cur = (none, cur) := by
      unfold scanFragment
      split
      · exact absurd rfl (hne _)
      · rfl
    obtain ⟨rfl, rfl⟩ := stage_eq_some hx
    simp [UrlRecord.parts, hr, hscan]

theorem urlTail_scan (hx : urlTail h r cur = (some (r', cur'), h')) (hp : r.path = none)
    (hq : r.query = none) (hf : r.fragment = none) :
    ∃ p q f, scanTail cur = some (p, q, f) ∧
      r'.parts =
        { r.parts with path := p.map cut16, query := q.map cut16, fragment := f.map cut16 } := by
  unfold urlTail at hx
  split at hx
  · rename_i hnil
    obtain ⟨rfl, rfl⟩ := stage_eq_some hx
    exact ⟨none, none, none, by rw [hnil]; rfl, by simp [UrlRecord.parts, hp, hq, hf]⟩
  · obtain ⟨r₂, cur₂, h₂, hx₂, hfrag⟩ := andThen_eq_some hx
    obtain ⟨r₁, cur₁, h₁, hx₁, hquery⟩ := andThen_eq_some hx₂
    unfold urlPath at hx₁
    split at hx₁
    · obtain ⟨rfl, b, rfl⟩ := urlField_eq_some hx₁
      obtain ⟨rfl, hparts⟩ := urlQuery_scan hquery hq
      have hf₂ : r₂.fragment = none := by
        have := congrArg UrlParts.fragment hparts
        simpa [UrlRecord.parts, hf] using this
      refine ⟨_, _, _, rfl, ?_⟩
      rw [urlFragment_scan hfrag hf₂, hparts]
      rfl
    · cases hx₁

/-- The components with the scheme in lower case. -/
def UrlParts.lower (p : UrlParts) : UrlParts := { p with scheme := p.scheme.map toLower }

/-- **A record that `url_parse` returns holds the components of the URL**, the scheme in lower
case, each cut to a 16-bit length. -/
theorem urlParse_scan {url : Bytes} (hx : urlParse h url = (some r, h')) :
    ∃ p, scan (cstr url) = some p ∧ r.parts = p.lower.cut := by
  unfold urlParse at hx
  split at hx
  · cases hx
  · obtain ⟨hr, -⟩ := Prod.mk.inj hx
    obtain ⟨⟨r₆, cur₆⟩, hx₆, rfl⟩ := Option.map_eq_some_iff.mp hr
    obtain ⟨r₅, cur₅, h₅, hx₅, htail⟩ := andThen_eq_some (Prod.ext hx₆ rfl)
    obtain ⟨r₄, cur₄, h₄, hx₄, hport⟩ := andThen_eq_some hx₅
    obtain ⟨r₃, cur₃, h₃, hx₃, hhost⟩ := andThen_eq_some hx₄
    obtain ⟨r₂, cur₂, h₂, hx₂, huser⟩ := andThen_eq_some hx₃
    obtain ⟨r₁, cur₁, h₁, hscheme, hslashes⟩ := andThen_eq_some hx₂
    obtain ⟨s, hs, p₁⟩ := urlScheme_scan hscheme
    obtain ⟨hsl, rfl⟩ := urlSlashes_scan hslashes
    have hu : r₂.username = none := by simpa [UrlRecord.parts] using congrArg UrlParts.username p₁
    have hp : r₂.password = none := by simpa [UrlRecord.parts] using congrArg UrlParts.password p₁
    obtain ⟨u, pw, husr, p₃⟩ := urlUser_scan huser hu hp
    obtain ⟨rfl, p₄⟩ := urlHost_scan hhost
    rw [p₃, p₁] at p₄
    have hpo : r₄.port = none := by simpa [UrlRecord.parts] using congrArg UrlParts.port p₄
    obtain ⟨rfl, p₅⟩ := urlPort_scan hport hpo
    rw [p₄] at p₅
    have hpa : r₅.path = none := by simpa [UrlRecord.parts] using congrArg UrlParts.path p₅
    have hqu : r₅.query = none := by simpa [UrlRecord.parts] using congrArg UrlParts.query p₅
    have hfr : r₅.fragment = none := by
      simpa [UrlRecord.parts] using congrArg UrlParts.fragment p₅
    obtain ⟨pa, q, f, hta, p₆⟩ := urlTail_scan htail hpa hqu hfr
    refine ⟨⟨s, u, pw, hostField cur₃, (scanPort (cur₃.drop (hostField cur₃).length)).1, pa, q, f⟩,
      ?_, ?_⟩
    · unfold scan
      simp only [hs, hsl, husr, hta, Option.bind_eq_bind, Option.bind_some, Option.pure_def]
    · rw [p₆, p₅]
      rfl

end Refinement

/-! ## Recomposition -/

theorem cut_map {o : Option Bytes} {n : Nat} (h : ∀ s ∈ o, s.length ≤ n) (hn : n < 65536) :
    o.map cut16 = o := by
  cases o with
  | none => rfl
  | some s => rw [Option.map_some, cut16_of_length (Nat.lt_of_le_of_lt (h s rfl) hn)]

theorem length_behind {d : UInt8} {o : Option Bytes} : ∀ s ∈ o, s.length ≤ (behind d o).length := by
  rintro s rfl
  simp [behind]

/-- A URL of fewer than 65536 bytes has no component that a 16-bit length cuts. -/
theorem cut_of_length {p : UrlParts} (hp : p.username = none → p.password = none)
    (ht : p.path = none → p.query = none ∧ p.fragment = none) (h : p.text.length < 65536) :
    p.cut = p := by
  obtain ⟨s, u, pw, ho, po, pa, q, f⟩ := p
  have hlen : s.length + (userinfo u pw).length + ho.length + (behind 58 po).length +
      (target pa q f).length < 65536 := by
    simp only [UrlParts.text, List.length_append, List.length_cons, List.length_nil] at h
    omega
  have hpo := cut_map (length_behind (d := 58) (o := po)) (by omega)
  have hs := cut16_of_length (s := s) (by omega)
  have hho := cut16_of_length (s := ho) (by omega)
  have hupw : u.map cut16 = u ∧ pw.map cut16 = pw := by
    cases u with
    | none =>
      obtain rfl : pw = none := hp rfl
      exact ⟨rfl, rfl⟩
    | some u =>
      simp only [userinfo, List.length_append, List.length_cons, List.length_nil] at hlen
      exact ⟨by rw [Option.map_some, cut16_of_length (by omega)],
        cut_map (length_behind (d := 58) (o := pw)) (by omega)⟩
  have htail : pa.map cut16 = pa ∧ q.map cut16 = q ∧ f.map cut16 = f := by
    cases pa with
    | none =>
      obtain ⟨rfl, rfl⟩ := ht rfl
      exact ⟨rfl, rfl, rfl⟩
    | some pa =>
      simp only [target, List.length_append, List.length_cons] at hlen
      exact ⟨by rw [Option.map_some, cut16_of_length (by omega)],
        cut_map (length_behind (d := 63) (o := q)) (by omega),
        cut_map (length_behind (d := 35) (o := f)) (by omega)⟩
  simp only [UrlParts.cut, hpo, hs, hho, hupw.1, hupw.2, htail.1, htail.2.1, htail.2.2]

/-- What the components of a URL have in common. -/
theorem scan_shape {url : Bytes} {p : UrlParts} (h : scan url = some p) :
    p.scheme = url.takeWhile (· ≠ 58) ∧ (p.username = none → p.password = none) ∧
      (p.path = none → p.query = none ∧ p.fragment = none) := by
  unfold scan at h
  simp only [Option.bind_eq_bind, Option.bind_eq_some_iff, Option.pure_def, Option.some.injEq,
    Prod.exists] at h
  obtain ⟨s, cur₁, h₁, cur₂, h₂, u, pw, cur₃, h₃, pa, q, f, h₄, rfl⟩ := h
  refine ⟨?_, ?_, ?_⟩
  · unfold scanScheme at h₁
    split at h₁
    · exact (Prod.mk.inj (Option.some.inj h₁)).1.symm
    · cases h₁
  · rintro rfl
    unfold scanUser at h₃
    split at h₃
    · obtain ⟨_, _, heq⟩ := Option.map_eq_some_iff.mp h₃
      cases (Prod.mk.inj heq).1
    · exact (Prod.mk.inj (Prod.mk.inj (Option.some.inj h₃)).2).1.symm
  · rintro rfl
    unfold scanTail at h₄
    split at h₄
    · obtain ⟨-, heq⟩ := Prod.mk.inj (Option.some.inj h₄)
      exact ⟨(Prod.mk.inj heq).1.symm, (Prod.mk.inj heq).2.symm⟩
    · cases (Prod.mk.inj (Option.some.inj h₄)).1
    · cases h₄

/-- The URL with its scheme in lower case. -/
def lowerScheme (url : Bytes) : Bytes :=
  (url.takeWhile (· ≠ 58)).map toLower ++ url.dropWhile (· ≠ 58)

theorem text_lower {url : Bytes} {p : UrlParts} (h : scan url = some p) :
    p.lower.text = lowerScheme url := by
  have htext := text_scan h
  rw [UrlParts.text, (scan_shape h).1] at htext
  simp only [List.append_assoc] at htext
  have hrest := List.append_cancel_left
    (htext.trans (List.takeWhile_append_dropWhile (p := (· ≠ 58)) (l := url)).symm)
  rw [lowerScheme, ← hrest, UrlParts.text]
  simp only [UrlParts.lower, (scan_shape h).1, List.append_assoc]

/-- **The fields of a record, put together, are the URL with its scheme in lower case**, for a URL
of at most 65535 bytes. -/
theorem recompose_urlParse {h h' : Heap} {url : Bytes} {r : UrlRecord} (h0 : (0 : UInt8) ∉ url)
    (hlen : url.length ≤ 65535) (hx : urlParse h url = (some r, h')) :
    r.parts.text = lowerScheme url := by
  obtain ⟨p, hp, hr⟩ := urlParse_scan hx
  rw [cstr_of_notMem h0] at hp
  obtain ⟨-, huser, hpath⟩ := scan_shape hp
  have hcut : p.lower.cut = p.lower := by
    refine cut_of_length huser hpath ?_
    rw [text_lower hp, lowerScheme, List.length_append, List.length_map, ← List.length_append,
      List.takeWhile_append_dropWhile]
    omega
  rw [hr, hcut, text_lower hp]

/-- A URL with every component. -/
theorem recompose_urlParse_full :
    ∃ r h', urlParse (.empty fun _ => true) (ascii "WSS://me:pw@[::1]:8/a?b#c") = (some r, h') ∧
      r.parts.text = ascii "wss://me:pw@[::1]:8/a?b#c" := by
  have hsome : (urlParse (.empty fun _ => true) (ascii "WSS://me:pw@[::1]:8/a?b#c")).1.isSome =
      true := by decide +kernel
  obtain ⟨r, hr⟩ := Option.isSome_iff_exists.mp hsome
  refine ⟨r, _, Prod.ext hr rfl, ?_⟩
  rw [recompose_urlParse (by decide) (by decide) (Prod.ext hr rfl)]
  decide

end Rastreo.Net
