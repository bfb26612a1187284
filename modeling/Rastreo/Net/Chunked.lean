import Rastreo.Lib.Scanner
import Rastreo.Lib.CString

/-!
# `phr_decode_chunked`

The decoder works in place: `src` is where it reads, `dst` where the next data byte goes, and what it
has not read is moved behind the data at the end. A `case` that falls through has set `_state` to the
next one before, so a pass of the loop is one `case`.

* `decode` is the same decoder, one byte at a time and with the data beside the buffer.
* **`phrDecodeChunked_eq`**: the decoder in place gives what `decode` gives: its answer, its state,
  the data at the front of the buffer, and behind it what was not read.
-/

namespace Rastreo.Net.Chunked

open Rastreo.Lib

/-- `CHUNKED_IN_…`. -/
inductive ChunkedState
  | chunkSize
  | chunkExt
  | chunkData
  | chunkCrlf
  | trailersLineHead
  | trailersLineMiddle
  deriving DecidableEq, Repr

/-- `struct phr_chunked_decoder`. -/
structure ChunkedDecoder where
  bytesLeftInChunk : Nat
  consumeTrailer : Bool
  hexCount : Nat
  state : ChunkedState
  deriving DecidableEq, Repr

/-- `decode_hex`; -1 is `none`. -/
def decodeHex (ch : UInt8) : Option Nat :=
  if 48 ≤ ch ∧ ch ≤ 57 then some (ch.toNat - 48)
  else if 65 ≤ ch ∧ ch ≤ 70 then some (ch.toNat - 65 + 10)
  else if 97 ≤ ch ∧ ch ≤ 102 then some (ch.toNat - 97 + 10)
  else none

/-- The decoder with one more digit of the size. -/
def ChunkedDecoder.digit (d : ChunkedDecoder) (v : Nat) : ChunkedDecoder :=
  { d with
    bytesLeftInChunk := (d.bytesLeftInChunk * 16 + v) % 4294967296
    hexCount := d.hexCount + 1 }

/-! ## In place -/

/-- How the loop is left: `goto Exit` with `ret` at -1 or -2, or `goto Complete`. -/
inductive ChunkedEnd
  | malformed
  | incomplete
  | complete
  deriving DecidableEq, Repr

/-- `memmove (buf + dst, buf + src, n)`. -/
def memmove (buf : Bytes) (dst src n : Nat) : Bytes :=
  buf.take dst ++ ((buf.drop src).take n ++ buf.drop (dst + n))

/-- The variables of `phr_decode_chunked`. -/
structure ChunkedRun where
  decoder : ChunkedDecoder
  buf : Bytes
  dst : Nat
  src : Nat

/-- The loop of `CHUNKED_IN_CHUNK_SIZE` on what is left to read: the decoder, how many digits it took,
and whether it left the switch. -/
def sizeLoop (d : ChunkedDecoder) : Bytes → ChunkedDecoder × Nat × Option ChunkedEnd
  | [] => (d, 0, some .incomplete)
  | c :: s =>
    match decodeHex c with
    | none => (d, 0, if d.hexCount = 0 then some .malformed else none)
    | some v =>
      if d.hexCount = 4 * 2 then (d, 0, some .malformed)
      else
        let (d, n, e) := sizeLoop (d.digit v) s
        (d, n + 1, e)

namespace ChunkedRun

/-- `case CHUNKED_IN_CHUNK_SIZE`. -/
def inChunkSize (r : ChunkedRun) : ChunkedRun × Option ChunkedEnd :=
  let (d, n, e) := sizeLoop r.decoder (r.buf.drop r.src)
  match e with
  | some e => ({ r with decoder := d, src := r.src + n }, some e)
  | none =>
    ({ r with decoder := { d with hexCount := 0, state := .chunkExt }, src := r.src + n }, none)

/-- `for (;; ++src)` up to a byte that is not `p`, and what is done at the end of the buffer, or at
that byte. -/
def scan (r : ChunkedRun) (p : UInt8 → Bool) (at' : Nat → ChunkedRun × Option ChunkedEnd) :
    ChunkedRun × Option ChunkedEnd :=
  let src := r.src + ((r.buf.drop r.src).takeWhile p).length
  if src = r.buf.length then ({ r with src := src }, some .incomplete) else at' src

/-- `case CHUNKED_IN_CHUNK_EXT`. -/
def inChunkExt (r : ChunkedRun) : ChunkedRun × Option ChunkedEnd :=
  r.scan (· ≠ 10) fun src =>
    if r.decoder.bytesLeftInChunk = 0 then
      if r.decoder.consumeTrailer then
        ({ r with decoder := { r.decoder with state := .trailersLineHead }, src := src + 1 }, none)
      else ({ r with src := src + 1 }, some .complete)
    else ({ r with decoder := { r.decoder with state := .chunkData }, src := src + 1 }, none)

/-- `case CHUNKED_IN_CHUNK_DATA`. -/
def inChunkData (r : ChunkedRun) : ChunkedRun × Option ChunkedEnd :=
  let d := r.decoder
  let avail := r.buf.length - r.src
  if avail < d.bytesLeftInChunk then
    ({ decoder := { d with bytesLeftInChunk := d.bytesLeftInChunk - avail }
       buf := if r.dst ≠ r.src then memmove r.buf r.dst r.src avail else r.buf
       src := r.src + avail
       dst := r.dst + avail }, some .incomplete)
  else
    ({ decoder := { d with bytesLeftInChunk := 0, state := .chunkCrlf }
       buf := if r.dst ≠ r.src then memmove r.buf r.dst r.src d.bytesLeftInChunk else r.buf
       src := r.src + d.bytesLeftInChunk
       dst := r.dst + d.bytesLeftInChunk }, none)

/-- `case CHUNKED_IN_CHUNK_CRLF`. -/
def inChunkCrlf (r : ChunkedRun) : ChunkedRun × Option ChunkedEnd :=
  r.scan (· = 13) fun src =>
    if r.buf[src]? ≠ some 10 then ({ r with src := src }, some .malformed)
    else ({ r with decoder := { r.decoder with state := .chunkSize }, src := src + 1 }, none)

/-- `case CHUNKED_IN_TRAILERS_LINE_HEAD`. -/
def inTrailersLineHead (r : ChunkedRun) : ChunkedRun × Option ChunkedEnd :=
  r.scan (· = 13) fun src =>
    if r.buf[src]? = some 10 then ({ r with src := src + 1 }, some .complete)
    else ({ r with decoder := { r.decoder with state := .trailersLineMiddle }, src := src + 1 }, none)

/-- `case CHUNKED_IN_TRAILERS_LINE_MIDDLE`. -/
def inTrailersLineMiddle (r : ChunkedRun) : ChunkedRun × Option ChunkedEnd :=
  r.scan (· ≠ 10) fun src =>
    ({ r with decoder := { r.decoder with state := .trailersLineHead }, src := src + 1 }, none)

/-- One pass of `while (1)`. -/
def pass (r : ChunkedRun) : ChunkedRun × Option ChunkedEnd :=
  match r.decoder.state with
  | .chunkSize => r.inChunkSize
  | .chunkExt => r.inChunkExt
  | .chunkData => r.inChunkData
  | .chunkCrlf => r.inChunkCrlf
  | .trailersLineHead => r.inTrailersLineHead
  | .trailersLineMiddle => r.inTrailersLineMiddle

/-- `while (1)`, for as many passes as the fuel allows. -/
def loop : Nat → ChunkedRun → Option (ChunkedRun × ChunkedEnd)
  | 0, _ => none
  | fuel + 1, r =>
    match r.pass with
    | (r, some e) => some (r, e)
    | (r, none) => loop fuel r

end ChunkedRun

/-- The answer of `phr_decode_chunked`: `ret`, the decoder, the buffer, and `*_bufsz`. -/
structure ChunkedAnswer where
  ret : Int
  decoder : ChunkedDecoder
  buf : Bytes
  bufsz : Nat
  deriving DecidableEq, Repr

/-- `Complete` and `Exit`. -/
def ChunkedRun.exit (r : ChunkedRun) (e : ChunkedEnd) : ChunkedAnswer where
  ret := match e with
    | .malformed => -1
    | .incomplete => -2
    | .complete => (r.buf.length - r.src : Nat)
  decoder := r.decoder
  buf := if r.dst ≠ r.src then memmove r.buf r.dst r.src (r.buf.length - r.src) else r.buf
  bufsz := r.dst

/-- `phr_decode_chunked`. -/
def phrDecodeChunked (fuel : Nat) (d : ChunkedDecoder) (buf : Bytes) : Option ChunkedAnswer :=
  (ChunkedRun.loop fuel ⟨d, buf, 0, 0⟩).map fun (r, e) => r.exit e

/-! ## One byte at a time -/

/-- What a byte makes of a decoder. -/
inductive ChunkedStep
  | next (d : ChunkedDecoder) (data : Bytes)
  | stop (d : ChunkedDecoder)
  | refuse
  deriving DecidableEq

/-- A byte of a chunk extension. -/
def ChunkedDecoder.ext (d : ChunkedDecoder) (c : UInt8) : ChunkedStep :=
  if c = 10 then
    if d.bytesLeftInChunk = 0 then
      if d.consumeTrailer then .next { d with state := .trailersLineHead } []
      else .stop { d with state := .chunkExt }
    else .next { d with state := .chunkData } []
  else .next { d with state := .chunkExt } []

/-- One byte. -/
def ChunkedDecoder.byte (d : ChunkedDecoder) (c : UInt8) : ChunkedStep :=
  match d.state with
  | .chunkSize =>
    match decodeHex c with
    | none => if d.hexCount = 0 then .refuse else { d with hexCount := 0 }.ext c
    | some v => if d.hexCount = 8 then .refuse else .next (d.digit v) []
  | .chunkExt => d.ext c
  | .chunkData =>
    .next { d with
      bytesLeftInChunk := d.bytesLeftInChunk - 1
      state := if d.bytesLeftInChunk = 1 then .chunkCrlf else .chunkData } [c]
  | .chunkCrlf =>
    if c = 13 then .next d []
    else if c = 10 then .next { d with state := .chunkSize } []
    else .refuse
  | .trailersLineHead =>
    if c = 13 then .next d []
    else if c = 10 then .stop d
    else .next { d with state := .trailersLineMiddle } []
  | .trailersLineMiddle =>
    if c = 10 then .next { d with state := .trailersLineHead } [] else .next d []

/-- What is made of a buffer: the data, the decoder, and what was not read. -/
structure Decoded where
  ending : ChunkedEnd
  decoder : ChunkedDecoder
  data : Bytes
  rest : Bytes
  deriving DecidableEq

/-- The data with more in front of it. -/
def Decoded.after (x : Decoded) (u : Bytes) : Decoded := { x with data := u ++ x.data }

@[simp] theorem Decoded.after_nil (x : Decoded) : x.after [] = x := rfl

@[simp] theorem Decoded.after_after (x : Decoded) (u v : Bytes) :
    (x.after v).after u = x.after (u ++ v) := by
  unfold Decoded.after
  rw [List.append_assoc]

/-- The decoder on a buffer. -/
def decode (d : ChunkedDecoder) : Bytes → Decoded
  | [] => ⟨.incomplete, d, [], []⟩
  | c :: s =>
    match d.byte c with
    | .next d u => (decode d s).after u
    | .stop d => ⟨.complete, d, [], s⟩
    | .refuse => ⟨.malformed, d, [], c :: s⟩

section Bytes

variable {d d' : ChunkedDecoder} {c : UInt8} {s u : Bytes}

theorem decode_next (h : d.byte c = .next d' u) : decode d (c :: s) = (decode d' s).after u := by
  rw [decode, h]

theorem decode_stop (h : d.byte c = .stop d') : decode d (c :: s) = ⟨.complete, d', [], s⟩ := by
  rw [decode, h]

theorem decode_refuse (h : d.byte c = .refuse) :
    decode d (c :: s) = ⟨.malformed, d, [], c :: s⟩ := by
  rw [decode, h]

/-- Bytes that change nothing. -/
theorem decode_skip (h : ∀ c ∈ u, d.byte c = .next d []) : decode d (u ++ s) = decode d s := by
  induction u with
  | nil => rfl
  | cons c u ih =>
    rw [List.cons_append, decode_next (h c List.mem_cons_self), Decoded.after_nil]
    exact ih fun b hb => h b (List.mem_cons_of_mem _ hb)

/-- **The two halves of a buffer.** -/
theorem decode_append (d : ChunkedDecoder) (s t : Bytes) :
    decode d (s ++ t) =
      if (decode d s).ending = .incomplete then (decode (decode d s).decoder t).after (decode d s).data
      else { decode d s with rest := (decode d s).rest ++ t } := by
  induction s generalizing d with
  | nil => rfl
  | cons c s ih =>
    cases hb : d.byte c with
    | next d' u =>
      rw [List.cons_append, decode_next hb, decode_next hb, ih]
      show _ = if (decode d' s).ending = .incomplete then _ else _
      split
      · rw [Decoded.after_after]
        rfl
      · rfl
    | stop d' =>
      rw [List.cons_append, decode_stop hb, decode_stop hb]
      rfl
    | refuse =>
      rw [List.cons_append, decode_refuse hb, decode_refuse hb]
      rfl

theorem ext_ne_refuse (d : ChunkedDecoder) (c : UInt8) : d.ext c ≠ .refuse := by
  unfold ChunkedDecoder.ext
  split
  · split
    · split <;> exact fun h => (nomatch h)
    · exact fun h => (nomatch h)
  · exact fun h => (nomatch h)

theorem decodeHex_lt {v : Nat} (h : decodeHex c = some v) : v < 16 := by
  unfold decodeHex at h
  split at h
  · rename_i hc
    obtain rfl := Option.some.inj h
    have hle : c.toNat ≤ 57 := hc.2
    omega
  · split at h
    · rename_i hc
      obtain rfl := Option.some.inj h
      have hle : c.toNat ≤ 70 := hc.2
      omega
    · split at h
      · rename_i hc
        obtain rfl := Option.some.inj h
        have hle : c.toNat ≤ 102 := hc.2
        omega
      · cases h

/-- The digits of a size. -/
theorem decode_sizeLoop (hst : d.state = .chunkSize) (s : Bytes) :
    (sizeLoop d s).1.state = .chunkSize ∧ (sizeLoop d s).2.1 ≤ s.length ∧
    match (sizeLoop d s).2.2 with
    | some e => decode d s = ⟨e, (sizeLoop d s).1, [], s.drop (sizeLoop d s).2.1⟩
    | none => decode d s = decode { (sizeLoop d s).1 with hexCount := 0, state := .chunkExt }
        (s.drop (sizeLoop d s).2.1) := by
  induction s generalizing d with
  | nil => exact ⟨hst, le_rfl, rfl⟩
  | cons c s ih =>
    unfold sizeLoop
    cases hv : decodeHex c with
    | none =>
      refine ⟨hst, Nat.zero_le _, ?_⟩
      by_cases hcount : d.hexCount = 0
      · have hb : d.byte c = .refuse := by
          unfold ChunkedDecoder.byte
          rw [hst, hv]
          exact if_pos hcount
        dsimp only
        rw [if_pos hcount]
        exact decode_refuse hb
      · have hb : d.byte c = { d with hexCount := 0 }.ext c := by
          unfold ChunkedDecoder.byte
          rw [hst, hv]
          exact if_neg hcount
        have hb' : ({ d with hexCount := 0, state := .chunkExt } : ChunkedDecoder).byte c =
            { d with hexCount := 0 }.ext c := rfl
        dsimp only
        rw [if_neg hcount]
        show decode d (c :: s) = decode { d with hexCount := 0, state := .chunkExt } (c :: s)
        unfold decode
        rw [hb, hb']
        cases hx : ({ d with hexCount := 0 } : ChunkedDecoder).ext c with
        | next d' u => rfl
        | stop d' => rfl
        | refuse => exact absurd hx (ext_ne_refuse _ c)
    | some v =>
      dsimp only
      by_cases hcount : d.hexCount = 8
      · have hb : d.byte c = .refuse := by
          unfold ChunkedDecoder.byte
          rw [hst, hv]
          exact if_pos hcount
        rw [if_pos hcount]
        exact ⟨hst, Nat.zero_le _, decode_refuse hb⟩
      · have hb : d.byte c = .next (d.digit v) [] := by
          unfold ChunkedDecoder.byte
          rw [hst, hv]
          exact if_neg hcount
        rw [if_neg hcount, decode_next hb, Decoded.after_nil]
        obtain ⟨h₁, h₂, h₃⟩ := ih (d := d.digit v) hst
        exact ⟨h₁, Nat.succ_le_succ h₂, h₃⟩

/-- Data that does not reach the end of the chunk. -/
theorem decode_data (hst : d.state = .chunkData) (hlen : u.length < d.bytesLeftInChunk) :
    decode d (u ++ s) =
      (decode { d with bytesLeftInChunk := d.bytesLeftInChunk - u.length } s).after u := by
  induction u generalizing d with
  | nil => rfl
  | cons c u ih =>
    rw [List.length_cons] at hlen
    have hb : d.byte c = .next { d with bytesLeftInChunk := d.bytesLeftInChunk - 1 } [c] := by
      unfold ChunkedDecoder.byte
      rw [hst]
      show ChunkedStep.next { d with
        bytesLeftInChunk := d.bytesLeftInChunk - 1
        state := if d.bytesLeftInChunk = 1 then .chunkCrlf else .chunkData } [c] = _
      rw [if_neg (by omega), ← hst]
    have hrest := ih (d := { d with bytesLeftInChunk := d.bytesLeftInChunk - 1 }) hst (by
      show u.length < d.bytesLeftInChunk - 1
      omega)
    rw [List.cons_append, decode_next hb, hrest, Decoded.after_after, List.length_cons,
      Nat.add_comm u.length, ← Nat.sub_sub]
    rfl

/-- All the data of a chunk. -/
theorem decode_chunk (hst : d.state = .chunkData) (hlen : u.length = d.bytesLeftInChunk)
    (hpos : 0 < d.bytesLeftInChunk) :
    decode d (u ++ s) =
      (decode { d with bytesLeftInChunk := 0, state := .chunkCrlf } s).after u := by
  obtain ⟨v, c, rfl⟩ : ∃ v c, u = v ++ [c] := by
    rcases List.eq_nil_or_concat u with rfl | ⟨v, c, rfl⟩
    · rw [← hlen] at hpos
      cases hpos
    · exact ⟨v, c, List.concat_eq_append⟩
  rw [List.length_append, List.length_singleton] at hlen
  have hleft : d.bytesLeftInChunk - v.length = 1 := by omega
  have hb : ({ d with bytesLeftInChunk := d.bytesLeftInChunk - v.length } : ChunkedDecoder).byte c =
      .next { d with bytesLeftInChunk := 0, state := .chunkCrlf } [c] := by
    rw [hleft]
    unfold ChunkedDecoder.byte
    rw [hst]
    rfl
  rw [List.append_assoc, decode_data hst (by omega), List.singleton_append, decode_next hb,
    Decoded.after_after]

end Bytes

/-! ## The two decoders -/

section Memmove

variable {buf : Bytes} {dst src n : Nat}

theorem length_memmove (hdst : dst ≤ src) (hn : src + n ≤ buf.length) :
    (memmove buf dst src n).length = buf.length := by
  simp only [memmove, List.length_append, List.length_take, List.length_drop]
  omega

theorem take_memmove (hdst : dst ≤ src) (hn : src + n ≤ buf.length) :
    (memmove buf dst src n).take (dst + n) = buf.take dst ++ (buf.drop src).take n := by
  have hlen : (buf.take dst ++ (buf.drop src).take n).length = dst + n := by
    simp only [List.length_append, List.length_take, List.length_drop]
    omega
  rw [memmove, ← List.append_assoc, ← hlen, List.take_left]

/-- Behind the place it is moved from, the buffer is as it was. -/
theorem drop_memmove (hdst : dst ≤ src) (hn : src + n ≤ buf.length) {k : Nat} (hk : src + n ≤ k) :
    (memmove buf dst src n).drop k = buf.drop k := by
  have hlen : (buf.take dst ++ (buf.drop src).take n).length = dst + n := by
    simp only [List.length_append, List.length_take, List.length_drop]
    omega
  rw [memmove, ← List.append_assoc, List.drop_append, List.drop_eq_nil_of_le (by omega), hlen,
    List.drop_drop, List.nil_append]
  congr 1
  omega

/-- The test before the call makes no difference. -/
theorem memmove_self : (if dst ≠ src then memmove buf dst src n else buf) = memmove buf dst src n := by
  split
  · rfl
  · rename_i h
    obtain rfl := not_not.mp h
    rw [memmove, ← List.drop_drop, List.take_append_drop, List.take_append_drop]

end Memmove

/-- A scan from `src` stops at the end of the buffer, or at a byte. -/
theorem exists_scan (buf : Bytes) {src : Nat} (p : UInt8 → Bool) (hsrc : src ≤ buf.length) :
    ∃ u v, buf.drop src = u ++ v ∧ (buf.drop src).takeWhile p = u ∧ buf.drop (src + u.length) = v ∧
      (∀ c ∈ u, p c = true) ∧ (∀ c ∈ v.head?, p c = false) ∧ src + u.length ≤ buf.length ∧
      (src + u.length = buf.length ↔ v = []) ∧ buf[src + u.length]? = v.head? := by
  have hsplit : (buf.drop src).takeWhile p ++ (buf.drop src).dropWhile p = buf.drop src :=
    List.takeWhile_append_dropWhile
  generalize hu : (buf.drop src).takeWhile p = u at hsplit
  generalize hv : (buf.drop src).dropWhile p = v at hsplit
  have hdrop : buf.drop (src + u.length) = v := by
    rw [← List.drop_drop, ← hsplit, List.drop_left]
  have hlen := congrArg List.length hsplit
  rw [List.length_append, List.length_drop] at hlen
  refine ⟨u, v, hsplit.symm, rfl, hdrop, fun c hc => ?_, fun c hc => ?_, by omega, ?_, ?_⟩
  · rw [← hu] at hc
    exact List.mem_takeWhile_imp hc
  · have hhead := List.head?_dropWhile_not p (buf.drop src)
    rw [hv, Option.mem_def.mp hc] at hhead
    simpa using hhead
  · rw [← List.length_eq_zero_iff]
    omega
  · rw [← hdrop, List.head?_drop]

/-- `r'` has read on from `r`, and put `u` behind the data. -/
structure Moves (r r' : ChunkedRun) (u : Bytes) : Prop where
  length : r'.buf.length = r.buf.length
  data : r'.buf.take r'.dst = r.buf.take r.dst ++ u
  dst : r'.dst = r.dst + u.length
  forward : r.src ≤ r'.src
  inside : r'.src ≤ r'.buf.length
  behind : r'.dst ≤ r'.src
  unread : r'.buf.drop r'.src = r.buf.drop r'.src

/-- What holds at each pass. -/
structure ChunkedRun.Ok (r : ChunkedRun) : Prop where
  behind : r.dst ≤ r.src
  inside : r.src ≤ r.buf.length
  left : r.decoder.state = .chunkData → 0 < r.decoder.bytesLeftInChunk

/-- How far a state is from the next byte. -/
def ChunkedState.rank : ChunkedState → Nat
  | .chunkSize => 3
  | .chunkExt => 2
  | .chunkData => 1
  | .chunkCrlf | .trailersLineHead | .trailersLineMiddle => 0

/-- It falls with every pass: bytes to read, then the state. -/
def ChunkedRun.measure (r : ChunkedRun) : Nat := 4 * (r.buf.length - r.src) + r.decoder.state.rank

/-- What a pass does, told by `decode`. -/
def Passed (r : ChunkedRun) : ChunkedRun × Option ChunkedEnd → Prop
  | (r', some e) => ∃ u, Moves r r' u ∧
      decode r.decoder (r.buf.drop r.src) = ⟨e, r'.decoder, u, r.buf.drop r'.src⟩
  | (r', none) => ∃ u, Moves r r' u ∧ r'.Ok ∧ r'.measure < r.measure ∧
      decode r.decoder (r.buf.drop r.src) = (decode r'.decoder (r.buf.drop r'.src)).after u

section Pass

variable {r : ChunkedRun}

theorem Moves.skip (hok : r.Ok) (d : ChunkedDecoder) {k : Nat} (hk : r.src ≤ k)
    (hle : k ≤ r.buf.length) : Moves r { r with decoder := d, src := k } [] :=
  ⟨rfl, (List.append_nil _).symm, rfl, hk, hle, hok.behind.trans hk, rfl⟩

theorem passed_size (hok : r.Ok) (hst : r.decoder.state = .chunkSize) : Passed r r.inChunkSize := by
  obtain ⟨hsize, hle, hdec⟩ := decode_sizeLoop hst (r.buf.drop r.src)
  rw [List.length_drop] at hle
  have hin := hok.inside
  have hread : r.src + (sizeLoop r.decoder (r.buf.drop r.src)).2.1 ≤ r.buf.length := by omega
  unfold ChunkedRun.inChunkSize
  dsimp only
  cases he : (sizeLoop r.decoder (r.buf.drop r.src)).2.2 with
  | some e =>
    rw [he, List.drop_drop] at hdec
    exact ⟨[], .skip hok _ (Nat.le_add_right _ _) hread, hdec⟩
  | none =>
    rw [he, List.drop_drop] at hdec
    refine ⟨[], .skip hok _ (Nat.le_add_right _ _) hread, ⟨hok.behind.trans (Nat.le_add_right _ _),
      hread, fun h => (nomatch h)⟩, ?_, hdec⟩
    have hfewer := Nat.sub_le_sub_left (Nat.le_add_right r.src
      (sizeLoop r.decoder (r.buf.drop r.src)).2.1) r.buf.length
    have hrank : r.decoder.state.rank = 3 := by rw [hst]; rfl
    show 4 * (r.buf.length - (r.src + _)) + 2 < 4 * (r.buf.length - r.src) + r.decoder.state.rank
    rw [hrank]
    exact Nat.add_lt_add_of_le_of_lt (Nat.mul_le_mul_left 4 hfewer) (by decide)

/-- A scan over bytes that change nothing, up to a byte `c` that the decoder looks at. -/
theorem passed_scan (hok : r.Ok) {p : UInt8 → Bool} {at' : Nat → ChunkedRun × Option ChunkedEnd}
    (hskip : ∀ c, p c = true → r.decoder.byte c = .next r.decoder [])
    (hat : ∀ src c, r.src ≤ src → src < r.buf.length → r.buf[src]? = some c → p c = false →
      decode r.decoder (r.buf.drop r.src) = decode r.decoder (c :: r.buf.drop (src + 1)) →
      Passed r (at' src)) : Passed r (r.scan p at') := by
  obtain ⟨u, v, hsplit, hu, hdrop, hall, hhead, hle, hend, hget⟩ := exists_scan r.buf p hok.inside
  have hsame : decode r.decoder (r.buf.drop r.src) = decode r.decoder v := by
    rw [hsplit]
    exact decode_skip fun c hc => hskip c (hall c hc)
  unfold ChunkedRun.scan
  dsimp only
  rw [hu]
  split
  · rename_i hbufsz
    refine ⟨[], .skip hok _ (Nat.le_add_right _ _) hle, ?_⟩
    rw [hsame]
    show _ = (⟨_, _, _, r.buf.drop (r.src + u.length)⟩ : Decoded)
    rw [hdrop, hend.mp hbufsz]
    rfl
  · rename_i hbufsz
    obtain ⟨c, w, rfl⟩ := List.exists_cons_of_ne_nil fun h => hbufsz (hend.mpr h)
    have hnext : r.buf.drop (r.src + u.length + 1) = w := by
      rw [← List.drop_drop, hdrop]
      rfl
    refine hat _ c (Nat.le_add_right _ _) (lt_of_le_of_ne hle hbufsz) hget (hhead c rfl) ?_
    rw [hnext]
    exact hsame

/-- A byte that leads on to another state. -/
theorem passed_next (hok : r.Ok) {src : Nat} {c : UInt8} {d : ChunkedDecoder} (hsrc : r.src ≤ src)
    (hlt : src < r.buf.length) (hst : d.state = .chunkData → 0 < d.bytesLeftInChunk)
    (hb : r.decoder.byte c = .next d [])
    (hdec : decode r.decoder (r.buf.drop r.src) = decode r.decoder (c :: r.buf.drop (src + 1))) :
    Passed r ({ r with decoder := d, src := src + 1 }, none) := by
  refine ⟨[], .skip hok _ (by omega) hlt, ⟨hok.behind.trans (by show r.src ≤ src + 1; omega), hlt, hst⟩,
    ?_, ?_⟩
  · have hrank : d.state.rank ≤ 3 := by cases d.state <;> decide
    show 4 * (r.buf.length - (src + 1)) + d.state.rank < 4 * (r.buf.length - r.src) + _
    omega
  · rw [hdec, decode_next hb]

/-- A byte that ends the body. -/
theorem passed_stop (hok : r.Ok) {src : Nat} {c : UInt8} (hsrc : r.src ≤ src)
    (hlt : src < r.buf.length) (hb : r.decoder.byte c = .stop r.decoder)
    (hdec : decode r.decoder (r.buf.drop r.src) = decode r.decoder (c :: r.buf.drop (src + 1))) :
    Passed r ({ r with src := src + 1 }, some .complete) := by
  refine ⟨[], .skip hok _ (by omega) hlt, ?_⟩
  rw [hdec, decode_stop hb]

theorem passed_ext (hok : r.Ok) (hst : r.decoder.state = .chunkExt) : Passed r r.inChunkExt := by
  have hb : ∀ c, r.decoder.byte c = r.decoder.ext c := by
    intro c
    unfold ChunkedDecoder.byte
    rw [hst]
  have hsame : { r.decoder with state := .chunkExt } = r.decoder := by rw [← hst]
  refine passed_scan hok (fun c hc => ?_) fun src c hsrc hlt _ hc hdec => ?_
  · rw [hb, ChunkedDecoder.ext, if_neg (of_decide_eq_true hc), hsame]
  · obtain rfl : c = 10 := by simpa using hc
    have hten := hb 10
    rw [ChunkedDecoder.ext, if_pos rfl, hsame] at hten
    split
    · rename_i hleft
      rw [if_pos hleft] at hten
      split
      · rename_i htrailer
        rw [if_pos htrailer] at hten
        exact passed_next hok hsrc hlt (fun h => (nomatch h)) hten hdec
      · rename_i htrailer
        rw [if_neg htrailer] at hten
        exact passed_stop hok hsrc hlt hten hdec
    · rename_i hleft
      rw [if_neg hleft] at hten
      exact passed_next hok hsrc hlt (fun _ => Nat.pos_of_ne_zero hleft) hten hdec

theorem passed_data (hok : r.Ok) (hst : r.decoder.state = .chunkData) : Passed r r.inChunkData := by
  have hin := hok.inside
  have hbehind := hok.behind
  have hpos := hok.left hst
  unfold ChunkedRun.inChunkData
  dsimp only
  rw [memmove_self, memmove_self]
  split
  · rename_i havail
    have hmove : r.src + (r.buf.length - r.src) ≤ r.buf.length := by omega
    refine ⟨r.buf.drop r.src, ⟨length_memmove hbehind hmove, ?_, ?_, Nat.le_add_right _ _, ?_, ?_,
      drop_memmove hbehind hmove le_rfl⟩, ?_⟩
    · show (memmove _ _ _ _).take _ = _
      rw [take_memmove hbehind hmove, ← List.length_drop, List.take_length]
    · show r.dst + _ = _
      rw [List.length_drop]
    · show r.src + _ ≤ (memmove _ _ _ _).length
      rw [length_memmove hbehind hmove]
      exact hmove
    · show r.dst + _ ≤ r.src + _
      omega
    · have hdec := decode_data (u := r.buf.drop r.src) (s := []) hst (by rw [List.length_drop]; exact havail)
      rw [List.append_nil] at hdec
      rw [hdec, List.length_drop]
      show (⟨.incomplete, _, r.buf.drop r.src ++ [], []⟩ : Decoded) =
        ⟨_, _, _, r.buf.drop (r.src + (r.buf.length - r.src))⟩
      rw [List.drop_eq_nil_of_le (by omega : r.buf.length ≤ r.src + (r.buf.length - r.src)),
        List.append_nil]
      rfl
  · rename_i havail
    have hmove : r.src + r.decoder.bytesLeftInChunk ≤ r.buf.length := by omega
    have hlen : ((r.buf.drop r.src).take r.decoder.bytesLeftInChunk).length =
        r.decoder.bytesLeftInChunk := by
      rw [List.length_take, List.length_drop]
      omega
    refine ⟨(r.buf.drop r.src).take r.decoder.bytesLeftInChunk, ⟨length_memmove hbehind hmove,
      take_memmove hbehind hmove, ?_, Nat.le_add_right _ _, ?_, ?_,
      drop_memmove hbehind hmove le_rfl⟩, ⟨?_, ?_, fun h => (nomatch h)⟩, ?_, ?_⟩
    · show r.dst + _ = _
      rw [hlen]
    · show r.src + _ ≤ (memmove _ _ _ _).length
      rw [length_memmove hbehind hmove]
      exact hmove
    · exact Nat.add_le_add_right hbehind _
    · exact Nat.add_le_add_right hbehind _
    · show r.src + _ ≤ (memmove _ _ _ _).length
      rw [length_memmove hbehind hmove]
      exact hmove
    · show 4 * ((memmove _ _ _ _).length - (r.src + _)) + 0 < 4 * (r.buf.length - r.src) + _
      rw [length_memmove hbehind hmove]
      omega
    · have hdec := decode_chunk (s := r.buf.drop (r.src + r.decoder.bytesLeftInChunk)) hst hlen hpos
      rw [← List.drop_drop, List.take_append_drop] at hdec
      rw [hdec, List.drop_drop]

theorem passed_crlf (hok : r.Ok) (hst : r.decoder.state = .chunkCrlf) : Passed r r.inChunkCrlf := by
  have hb : ∀ c, r.decoder.byte c = if c = 13 then .next r.decoder []
      else if c = 10 then .next { r.decoder with state := .chunkSize } [] else .refuse := by
    intro c
    unfold ChunkedDecoder.byte
    rw [hst]
  refine passed_scan hok (fun c hc => ?_) fun src c hsrc hlt hget hc hdec => ?_
  · rw [hb, if_pos (of_decide_eq_true hc)]
  · have hbyte := hb c
    rw [if_neg (of_decide_eq_false hc)] at hbyte
    rw [hget]
    split
    · rename_i hne
      rw [if_neg fun h => hne (congrArg some h)] at hbyte
      refine ⟨[], .skip hok _ hsrc hlt.le, ?_⟩
      rw [hdec, decode_refuse hbyte]
      show _ = (⟨_, _, _, r.buf.drop src⟩ : Decoded)
      rw [List.drop_eq_getElem_cons hlt, (List.getElem?_eq_some_iff.mp hget).2]
    · rename_i heq
      rw [if_pos (Option.some.inj (not_not.mp heq))] at hbyte
      exact passed_next hok hsrc hlt (fun h => (nomatch h)) hbyte hdec

theorem passed_head (hok : r.Ok) (hst : r.decoder.state = .trailersLineHead) :
    Passed r r.inTrailersLineHead := by
  have hb : ∀ c, r.decoder.byte c = if c = 13 then .next r.decoder []
      else if c = 10 then .stop r.decoder
      else .next { r.decoder with state := .trailersLineMiddle } [] := by
    intro c
    unfold ChunkedDecoder.byte
    rw [hst]
  refine passed_scan hok (fun c hc => ?_) fun src c hsrc hlt hget hc hdec => ?_
  · rw [hb, if_pos (of_decide_eq_true hc)]
  · have hbyte := hb c
    rw [if_neg (of_decide_eq_false hc)] at hbyte
    rw [hget]
    split
    · rename_i heq
      rw [if_pos (Option.some.inj heq)] at hbyte
      exact passed_stop hok hsrc hlt hbyte hdec
    · rename_i hne
      rw [if_neg fun h => hne (congrArg some h)] at hbyte
      exact passed_next hok hsrc hlt (fun h => (nomatch h)) hbyte hdec

theorem passed_middle (hok : r.Ok) (hst : r.decoder.state = .trailersLineMiddle) :
    Passed r r.inTrailersLineMiddle := by
  have hb : ∀ c, r.decoder.byte c =
      if c = 10 then .next { r.decoder with state := .trailersLineHead } []
      else .next r.decoder [] := by
    intro c
    unfold ChunkedDecoder.byte
    rw [hst]
  refine passed_scan hok (fun c hc => ?_) fun src c hsrc hlt _ hc hdec => ?_
  · rw [hb, if_neg (of_decide_eq_true hc)]
  · obtain rfl : c = 10 := by simpa using hc
    exact passed_next hok hsrc hlt (fun h => (nomatch h)) (hb 10) hdec

/-- **One pass.** -/
theorem passed_pass (hok : r.Ok) : Passed r r.pass := by
  unfold ChunkedRun.pass
  split
  · rename_i hst
    exact passed_size hok hst
  · rename_i hst
    exact passed_ext hok hst
  · rename_i hst
    exact passed_data hok hst
  · rename_i hst
    exact passed_crlf hok hst
  · rename_i hst
    exact passed_head hok hst
  · rename_i hst
    exact passed_middle hok hst

theorem Moves.trans {r₁ r₂ : ChunkedRun} {u v : Bytes} (h₁ : Moves r r₁ u) (h₂ : Moves r₁ r₂ v) :
    Moves r r₂ (u ++ v) where
  length := h₂.length.trans h₁.length
  data := by rw [h₂.data, h₁.data, List.append_assoc]
  dst := by rw [h₂.dst, h₁.dst, List.length_append, Nat.add_assoc]
  forward := h₁.forward.trans h₂.forward
  inside := h₂.inside
  behind := h₂.behind
  unread := by
    obtain ⟨k, hk⟩ := Nat.exists_eq_add_of_le h₂.forward
    rw [h₂.unread, hk, ← List.drop_drop, h₁.unread, List.drop_drop]

/-- **The loop**, with fuel for every byte of the buffer. -/
theorem loop_spec {fuel : Nat} (hok : r.Ok) (hfuel : r.measure < fuel) :
    ∃ r' e u, r.loop fuel = some (r', e) ∧ Moves r r' u ∧
      decode r.decoder (r.buf.drop r.src) = ⟨e, r'.decoder, u, r.buf.drop r'.src⟩ := by
  induction fuel generalizing r with
  | zero => exact absurd hfuel (Nat.not_lt_zero _)
  | succ fuel ih =>
    have hpass := passed_pass hok
    unfold ChunkedRun.loop
    generalize r.pass = q at hpass
    obtain ⟨r₁, e⟩ := q
    cases e with
    | some e =>
      obtain ⟨u, hmoves, hdec⟩ := hpass
      exact ⟨r₁, e, u, rfl, hmoves, hdec⟩
    | none =>
      obtain ⟨u, hmoves, hok₁, hless, hdec⟩ := hpass
      obtain ⟨r', e, v, hloop, hmoves', hdec'⟩ := ih hok₁ (by omega)
      refine ⟨r', e, u ++ v, hloop, hmoves.trans hmoves', ?_⟩
      obtain ⟨k, hk⟩ := Nat.exists_eq_add_of_le hmoves'.forward
      rw [hmoves.unread] at hdec'
      rw [hdec, hdec', hk, ← List.drop_drop, hmoves.unread, List.drop_drop]
      rfl

end Pass

/-- The decoder is in the middle of no empty chunk. -/
def ChunkedDecoder.Wf (d : ChunkedDecoder) : Prop :=
  d.state = .chunkData → 0 < d.bytesLeftInChunk

/-- `ret`. -/
def Decoded.ret (x : Decoded) : Int :=
  match x.ending with
  | .malformed => -1
  | .incomplete => -2
  | .complete => x.rest.length

/-- **The decoder in place** gives what the one beside the buffer gives. -/
theorem phrDecodeChunked_eq {d : ChunkedDecoder} (hd : d.Wf) (buf : Bytes) {fuel : Nat}
    (hfuel : 4 * buf.length + 3 < fuel) :
    ∃ z, phrDecodeChunked fuel d buf = some
        ⟨(decode d buf).ret, (decode d buf).decoder,
          (decode d buf).data ++ ((decode d buf).rest ++ z), (decode d buf).data.length⟩ ∧
      ((decode d buf).data ++ ((decode d buf).rest ++ z)).length = buf.length := by
  have hrank : d.state.rank ≤ 3 := by cases d.state <;> decide
  obtain ⟨r, e, u, hloop, hmoves, hdec⟩ := @loop_spec ⟨d, buf, 0, 0⟩ fuel
    ⟨le_rfl, Nat.zero_le _, hd⟩ (by show 4 * (buf.length - 0) + d.state.rank < fuel; omega)
  have hdata : r.buf.take r.dst = u := hmoves.data
  have hdst : r.dst = u.length := hmoves.dst.trans (Nat.zero_add _)
  have hunread : r.buf.drop r.src = buf.drop r.src := hmoves.unread
  have hmove : r.src + (r.buf.length - r.src) ≤ r.buf.length := by
    have hin := hmoves.inside
    omega
  rw [List.drop_zero] at hdec
  rw [hdec]
  have hbuf : memmove r.buf r.dst r.src (r.buf.length - r.src) =
      u ++ (buf.drop r.src ++ r.buf.drop (r.dst + (r.buf.length - r.src))) := by
    rw [memmove, hdata, ← List.length_drop, List.take_length, hunread]
  refine ⟨r.buf.drop (r.dst + (r.buf.length - r.src)), ?_, ?_⟩
  · rw [phrDecodeChunked, hloop]
    show some (r.exit e) = _
    unfold ChunkedRun.exit
    rw [memmove_self, hbuf, hdst]
    have hrest : r.buf.length - r.src = (buf.drop r.src).length := by
      rw [List.length_drop, hmoves.length]
    cases e with
    | complete => rw [hrest]; rfl
    | malformed => rfl
    | incomplete => rfl
  · show (u ++ (buf.drop r.src ++ _)).length = _
    rw [← hbuf, length_memmove hmoves.behind hmove, hmoves.length]

end Rastreo.Net.Chunked
