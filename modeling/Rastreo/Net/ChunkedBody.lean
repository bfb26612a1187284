import Rastreo.Net.Chunked

/-!
# Bodies in chunks

A caller hands one buffer after the other to `phr_decode_chunked`, and takes the data that each call
leaves at its front (`decodeAll`). `ChunkedBody` is a body as text: hexadecimal digits in any case, any
extension behind them, any number of CRs in front of an LF, and for a decoder with `consume_trailer`
the trailer lines.

* **`decodeAll_flatten`**: it makes no difference how the bytes are cut into buffers, well formed or
  not (`decodeAll_eq` for a decoder that has begun).
* **`decode_chunkedBody`**, **`decodeAll_chunkedBody`**: the calls give what the chunks hold, and leave
  what follows the body.
-/

namespace Rastreo.Net.Chunked

open Rastreo.Lib

/-! ## Buffer after buffer -/

section Feed

variable {d d' : ChunkedDecoder} {c : UInt8} {u : Bytes}

theorem Wf.ext (h : d.ext c = .next d' u) : d'.Wf := by
  unfold ChunkedDecoder.ext at h
  split at h
  · split at h
    · split at h
      · obtain ⟨rfl, -⟩ := ChunkedStep.next.inj h
        exact fun h' => (nomatch h')
      · cases h
    · rename_i hleft
      obtain ⟨rfl, -⟩ := ChunkedStep.next.inj h
      exact fun _ => Nat.pos_of_ne_zero hleft
  · obtain ⟨rfl, -⟩ := ChunkedStep.next.inj h
    exact fun h' => (nomatch h')

theorem Wf.byte (hd : d.Wf) (h : d.byte c = .next d' u) : d'.Wf := by
  unfold ChunkedDecoder.byte at h
  split at h
  · rename_i hst
    split at h
    · split at h
      · cases h
      · exact Wf.ext h
    · split at h
      · cases h
      · obtain ⟨rfl, -⟩ := ChunkedStep.next.inj h
        exact fun h' => absurd (hst.symm.trans h') (by decide)
  · exact Wf.ext h
  · rename_i hst
    obtain ⟨rfl, -⟩ := ChunkedStep.next.inj h
    have hpos := hd hst
    intro h'
    show 0 < d.bytesLeftInChunk - 1
    dsimp only at h'
    split at h'
    · cases h'
    · omega
  · split at h
    · obtain ⟨rfl, -⟩ := ChunkedStep.next.inj h
      exact hd
    · split at h
      · obtain ⟨rfl, -⟩ := ChunkedStep.next.inj h
        exact fun h' => (nomatch h')
      · cases h
  · split at h
    · obtain ⟨rfl, -⟩ := ChunkedStep.next.inj h
      exact hd
    · split at h
      · cases h
      · obtain ⟨rfl, -⟩ := ChunkedStep.next.inj h
        exact fun h' => (nomatch h')
  · split at h
    · obtain ⟨rfl, -⟩ := ChunkedStep.next.inj h
      exact fun h' => (nomatch h')
    · obtain ⟨rfl, -⟩ := ChunkedStep.next.inj h
      exact hd

theorem wf_decode (hd : d.Wf) (s : Bytes) (h : (decode d s).ending = .incomplete) :
    (decode d s).decoder.Wf := by
  induction s generalizing d with
  | nil => exact hd
  | cons c s ih =>
    cases hb : d.byte c with
    | next d' u =>
      rw [decode_next hb] at h ⊢
      exact ih (Wf.byte hd hb) h
    | stop d' => rw [decode_stop hb] at h; cases h
    | refuse => rw [decode_refuse hb] at h; cases h

/-- What a caller ends up with: the data, and for a body that is complete what follows it. -/
inductive Body
  | malformed (data : Bytes)
  | incomplete (data : Bytes)
  | complete (data rest : Bytes)
  deriving DecidableEq, Repr

/-- The body with `u` read before it. -/
def Body.after (u : Bytes) : Body → Body
  | .malformed data => .malformed (u ++ data)
  | .incomplete data => .incomplete (u ++ data)
  | .complete data rest => .complete (u ++ data) rest

/-- The body that a buffer holds. -/
def Decoded.body (x : Decoded) : Body :=
  match x.ending with
  | .malformed => .malformed x.data
  | .incomplete => .incomplete x.data
  | .complete => .complete x.data x.rest

/-- A caller that hands one buffer after the other to `phr_decode_chunked` while it answers -2, and
takes the data from the front of each. -/
def decodeAll (d : ChunkedDecoder) : List Bytes → Option Body
  | [] => some (.incomplete [])
  | b :: bs =>
    (phrDecodeChunked (4 * b.length + 4) d b).bind fun a =>
      let data := a.buf.take a.bufsz
      if a.ret = -2 then (decodeAll a.decoder bs).map (.after data)
      else if a.ret = -1 then some (.malformed data)
      else some (.complete data ((a.buf.drop a.bufsz).take a.ret.toNat ++ bs.flatten))

/-- **The cuts make no difference.** -/
theorem decodeAll_eq (hd : d.Wf) (bs : List Bytes) :
    decodeAll d bs = some (decode d bs.flatten).body := by
  induction bs generalizing d with
  | nil => rfl
  | cons b bs ih =>
    obtain ⟨z, hcall, -⟩ := phrDecodeChunked_eq hd b (Nat.lt_succ_self (4 * b.length + 3))
    have hwf := wf_decode hd b
    rw [decodeAll, hcall, List.flatten_cons, decode_append]
    generalize decode d b = x at hwf
    obtain ⟨e, d₁, data, rest⟩ := x
    rw [Option.bind_some]
    dsimp only
    rw [List.take_left]
    cases e with
    | incomplete =>
      have hret : (⟨.incomplete, d₁, data, rest⟩ : Decoded).ret = -2 := rfl
      rw [if_pos hret, if_pos rfl, ih (hwf rfl), Option.map_some]
      congr 1
      generalize decode d₁ bs.flatten = y
      obtain ⟨e, d₂, data', rest'⟩ := y
      cases e <;> rfl
    | malformed =>
      have hret : (⟨.malformed, d₁, data, rest⟩ : Decoded).ret = -1 := rfl
      rw [hret, if_neg (by decide), if_pos rfl, if_neg (by decide)]
      rfl
    | complete =>
      have hret : (⟨.complete, d₁, data, rest⟩ : Decoded).ret = rest.length := rfl
      rw [hret, if_neg (by omega), if_neg (by omega), if_neg (by decide), List.drop_left,
        Int.toNat_natCast, List.take_left]
      rfl

end Feed

/-! ## Bodies in chunks -/

/-- The number that hexadecimal digits write. -/
def hexVal (digits : Bytes) : Nat :=
  digits.foldl (fun n c => n * 16 + (decodeHex c).getD 0) 0

/-- A size line: up to eight digits, and anything else up to the LF. -/
structure SizeLine where
  digits : Bytes
  ext : Bytes
  hdigits : ∀ c ∈ digits, (decodeHex c).isSome
  hpos : digits ≠ []
  hlen : digits.length ≤ 8
  hext : (10 : UInt8) ∉ ext
  hstop : ∀ c ∈ ext.head?, decodeHex c = none

/-- The bytes of the size line. -/
def SizeLine.bytes (l : SizeLine) : Bytes := l.digits ++ (l.ext ++ [10])

/-- A chunk: its data is as long as the size line says. -/
structure Chunk where
  size : SizeLine
  data : Bytes
  crs : Nat
  hsize : hexVal size.digits = data.length
  hdata : data ≠ []

/-- The bytes of the chunk. -/
def Chunk.bytes (c : Chunk) : Bytes :=
  c.size.bytes ++ (c.data ++ (List.replicate c.crs 13 ++ [10]))

/-- A trailer line, of which the first byte that is no CR is no LF. -/
structure TrailerLine where
  crs : Nat
  first : UInt8
  text : Bytes
  hfirst : first ≠ 13 ∧ first ≠ 10
  htext : (10 : UInt8) ∉ text

/-- The bytes of the trailer line. -/
def TrailerLine.bytes (l : TrailerLine) : Bytes :=
  List.replicate l.crs 13 ++ (l.first :: (l.text ++ [10]))

/-- A body: chunks, the last one of size 0, and a trailer if the decoder is to read it. -/
structure ChunkedBody where
  chunks : List Chunk
  last : SizeLine
  hlast : hexVal last.digits = 0
  trailer : List TrailerLine
  crs : Nat

/-- The bytes of the body. -/
def ChunkedBody.bytes (b : ChunkedBody) (consumeTrailer : Bool) : Bytes :=
  b.chunks.flatMap Chunk.bytes ++ (b.last.bytes ++
    if consumeTrailer then b.trailer.flatMap TrailerLine.bytes ++ (List.replicate b.crs 13 ++ [10])
    else [])

/-- What the chunks hold. -/
def ChunkedBody.data (b : ChunkedBody) : Bytes := b.chunks.flatMap Chunk.data

/-- A decoder at the start of a chunk. -/
def freshDecoder (consumeTrailer : Bool) : ChunkedDecoder := ⟨0, consumeTrailer, 0, .chunkSize⟩

section Body

variable {t : Bool} {s : Bytes}

/-- The digits of a size, which is below 2^32. -/
theorem decode_digits (digits : Bytes) (hdigits : ∀ c ∈ digits, (decodeHex c).isSome) {n k : Nat}
    (hn : n < 16 ^ k) (hk : k + digits.length ≤ 8) :
    decode ⟨n, t, k, .chunkSize⟩ (digits ++ s) =
      decode ⟨digits.foldl (fun n c => n * 16 + (decodeHex c).getD 0) n, t, k + digits.length,
        .chunkSize⟩ s := by
  induction digits generalizing n k with
  | nil => rfl
  | cons c digits ih =>
    rw [List.length_cons] at hk
    obtain ⟨v, hv⟩ := Option.isSome_iff_exists.mp (hdigits c List.mem_cons_self)
    have hv16 : v < 16 := decodeHex_lt hv
    have hnext : n * 16 + v < 16 ^ (k + 1) := by
      rw [Nat.pow_succ]
      omega
    have hsmall : (n * 16 + v) % 4294967296 = n * 16 + v := by
      refine Nat.mod_eq_of_lt (hnext.trans_le ?_)
      calc 16 ^ (k + 1) ≤ 16 ^ 8 := Nat.pow_le_pow_right (by decide) (by omega)
        _ = 4294967296 := by norm_num
    have hb : (⟨n, t, k, .chunkSize⟩ : ChunkedDecoder).byte c =
        .next ⟨n * 16 + v, t, k + 1, .chunkSize⟩ [] := by
      unfold ChunkedDecoder.byte
      dsimp only
      rw [hv]
      show (if k = 8 then _ else _) = _
      rw [if_neg (by omega), ChunkedDecoder.digit]
      dsimp only
      rw [hsmall]
    rw [List.cons_append, decode_next hb, Decoded.after_nil,
      ih (fun c' hc' => hdigits c' (List.mem_cons_of_mem _ hc')) hnext (by omega), List.foldl_cons, hv,
      List.length_cons]
    rw [Nat.add_assoc, Nat.add_comm 1]
    rfl

/-- The first byte behind the digits belongs to the extension. -/
theorem decode_afterDigits {n k : Nat} {c : UInt8} (hc : decodeHex c = none) (hk : k ≠ 0) :
    decode ⟨n, t, k, .chunkSize⟩ (c :: s) = decode ⟨n, t, 0, .chunkExt⟩ (c :: s) := by
  have hloop : sizeLoop ⟨n, t, k, .chunkSize⟩ (c :: s) = (⟨n, t, k, .chunkSize⟩, 0, none) := by
    unfold sizeLoop
    rw [hc]
    show (_, 0, if k = 0 then _ else _) = _
    rw [if_neg hk]
  have hdec := (decode_sizeLoop (d := ⟨n, t, k, .chunkSize⟩) rfl (c :: s)).2.2
  rw [hloop] at hdec
  exact hdec

/-- A size line. -/
theorem decode_sizeLine (l : SizeLine) :
    decode (freshDecoder t) (l.bytes ++ s) =
      decode ⟨hexVal l.digits, t, 0, .chunkExt⟩ (10 :: s) := by
  have hlen : l.digits.length ≠ 0 := fun h => l.hpos (List.length_eq_zero_iff.mp h)
  have hdigits := decode_digits (t := t) (s := l.ext ++ (10 :: s)) l.digits l.hdigits (n := 0) (k := 0)
    (by decide) (by rw [Nat.zero_add]; exact l.hlen)
  have hskip : decode ⟨hexVal l.digits, t, 0, .chunkExt⟩ (l.ext ++ (10 :: s)) =
      decode ⟨hexVal l.digits, t, 0, .chunkExt⟩ (10 :: s) := by
    refine decode_skip fun c hc => ?_
    have hne : c ≠ 10 := fun h => l.hext (h ▸ hc)
    show (if c = 10 then _ else _) = _
    rw [if_neg hne]
  have hstart : l.bytes ++ s = l.digits ++ (l.ext ++ (10 :: s)) := by
    simp only [SizeLine.bytes, List.append_assoc, List.cons_append, List.nil_append]
  rw [hstart, freshDecoder, hdigits, ← hskip, Nat.zero_add]
  cases hext : l.ext with
  | nil => exact decode_afterDigits (by decide) hlen
  | cons c ext => exact decode_afterDigits (l.hstop c (by rw [hext]; rfl)) hlen

/-- CRs, and the LF of a chunk. -/
theorem decode_crs {d d' : ChunkedDecoder} (crs : Nat) (h13 : d.byte 13 = .next d [])
    (h10 : d.byte 10 = .next d' []) :
    decode d (List.replicate crs 13 ++ (10 :: s)) = decode d' s := by
  rw [decode_skip fun c hc => by rw [List.eq_of_mem_replicate hc, h13], decode_next h10,
    Decoded.after_nil]

/-- **A chunk.** -/
theorem decode_wholeChunk (c : Chunk) :
    decode (freshDecoder t) (c.bytes ++ s) = (decode (freshDecoder t) s).after c.data := by
  have hpos : 0 < c.data.length := List.length_pos_iff.mpr c.hdata
  have hten : (⟨c.data.length, t, 0, .chunkExt⟩ : ChunkedDecoder).byte 10 =
      .next ⟨c.data.length, t, 0, .chunkData⟩ [] := by
    have hne : c.data.length ≠ 0 := hpos.ne'
    simp [ChunkedDecoder.byte, ChunkedDecoder.ext, hne]
  have hbytes : c.bytes ++ s =
      c.size.bytes ++ (c.data ++ (List.replicate c.crs 13 ++ (10 :: s))) := by
    simp only [Chunk.bytes, List.append_assoc, List.cons_append, List.nil_append]
  rw [hbytes, decode_sizeLine, c.hsize, decode_next hten, Decoded.after_nil,
    decode_chunk (d := ⟨c.data.length, t, 0, .chunkData⟩) rfl rfl hpos,
    decode_crs c.crs rfl (rfl : ChunkedDecoder.byte _ 10 = .next (freshDecoder t) [])]

theorem decode_chunks (chunks : List Chunk) :
    decode (freshDecoder t) (chunks.flatMap Chunk.bytes ++ s) =
      (decode (freshDecoder t) s).after (chunks.flatMap Chunk.data) := by
  induction chunks with
  | nil => rfl
  | cons c chunks ih =>
    rw [List.flatMap_cons, List.append_assoc, decode_wholeChunk, ih, Decoded.after_after,
      List.flatMap_cons]

/-- The trailer. -/
theorem decode_trailer (trailer : List TrailerLine) (crs : Nat) :
    decode ⟨0, t, 0, .trailersLineHead⟩
        (trailer.flatMap TrailerLine.bytes ++ (List.replicate crs 13 ++ (10 :: s))) =
      ⟨.complete, ⟨0, t, 0, .trailersLineHead⟩, [], s⟩ := by
  have h13 : (⟨0, t, 0, .trailersLineHead⟩ : ChunkedDecoder).byte 13 =
      .next ⟨0, t, 0, .trailersLineHead⟩ [] := rfl
  induction trailer with
  | nil =>
    rw [List.flatMap_nil, List.nil_append,
      decode_skip fun c hc => by rw [List.eq_of_mem_replicate hc, h13]]
    exact decode_stop rfl
  | cons l trailer ih =>
    have hfirst : (⟨0, t, 0, .trailersLineHead⟩ : ChunkedDecoder).byte l.first =
        .next ⟨0, t, 0, .trailersLineMiddle⟩ [] := by
      show (if l.first = 13 then _ else if l.first = 10 then _ else _) = _
      rw [if_neg l.hfirst.1, if_neg l.hfirst.2]
    have htext : ∀ c ∈ l.text, (⟨0, t, 0, .trailersLineMiddle⟩ : ChunkedDecoder).byte c =
        .next ⟨0, t, 0, .trailersLineMiddle⟩ [] := by
      intro c hc
      have hne : c ≠ 10 := fun h => l.htext (h ▸ hc)
      show (if c = 10 then _ else _) = _
      rw [if_neg hne]
    have hten : (⟨0, t, 0, .trailersLineMiddle⟩ : ChunkedDecoder).byte 10 =
        .next ⟨0, t, 0, .trailersLineHead⟩ [] := rfl
    rw [List.flatMap_cons, TrailerLine.bytes]
    simp only [List.append_assoc, List.cons_append, List.nil_append]
    rw [decode_skip fun c hc => by rw [List.eq_of_mem_replicate hc, h13], decode_next hfirst,
      Decoded.after_nil, decode_skip htext, decode_next hten, Decoded.after_nil]
    exact ih

/-- **A body in chunks** is decoded to what its chunks hold, and what follows it is left. -/
theorem decode_chunkedBody (b : ChunkedBody) (consumeTrailer : Bool) (rest : Bytes) :
    (decode (freshDecoder consumeTrailer) (b.bytes consumeTrailer ++ rest)).body =
      .complete b.data rest := by
  have hdata : ∀ d : ChunkedDecoder,
      ((⟨.complete, d, [], rest⟩ : Decoded).after b.data).body = .complete b.data rest := by
    intro d
    show Body.complete (b.data ++ []) rest = _
    rw [List.append_nil]
  rw [ChunkedBody.bytes, List.append_assoc, List.append_assoc, decode_chunks, decode_sizeLine, b.hlast]
  cases consumeTrailer with
  | false =>
    rw [decode_stop rfl]
    exact hdata _
  | true =>
    have hten : (⟨0, true, 0, .chunkExt⟩ : ChunkedDecoder).byte 10 =
        .next ⟨0, true, 0, .trailersLineHead⟩ [] := rfl
    rw [decode_next hten, Decoded.after_nil, if_pos rfl, List.append_assoc, List.append_assoc,
      List.singleton_append, decode_trailer]
    exact hdata _

/-- **However bytes are cut into buffers**, bad ones too, the calls give what one call gives. -/
theorem decodeAll_flatten (consumeTrailer : Bool) (bs : List Bytes) :
    decodeAll (freshDecoder consumeTrailer) bs = decodeAll (freshDecoder consumeTrailer) [bs.flatten] := by
  have hwf : (freshDecoder consumeTrailer).Wf := fun h => by cases h
  rw [decodeAll_eq hwf, decodeAll_eq hwf, List.flatten_singleton]

/-- **However a body in chunks is cut into buffers**, the calls give what its chunks hold. -/
theorem decodeAll_chunkedBody (b : ChunkedBody) (consumeTrailer : Bool) (rest : Bytes)
    {bs : List Bytes} (hbs : bs.flatten = b.bytes consumeTrailer ++ rest) :
    decodeAll (freshDecoder consumeTrailer) bs = some (.complete b.data rest) := by
  have hwf : (freshDecoder consumeTrailer).Wf := fun h => by cases h
  rw [decodeAll_eq hwf, hbs, decode_chunkedBody]

/-- `2;x`. -/
def sampleSize : SizeLine where
  digits := ascii "2"
  ext := ascii ";x\r"
  hdigits := by decide +kernel
  hpos := by decide +kernel
  hlen := by decide +kernel
  hext := by decide +kernel
  hstop := by decide +kernel

/-- One chunk, and the last size. -/
def sampleBody : ChunkedBody where
  chunks := [⟨sampleSize, ascii "ab", 1, by decide +kernel, by decide +kernel⟩]
  last :=
    { sampleSize with
      digits := ascii "0"
      hdigits := by decide +kernel
      hpos := by decide +kernel
      hlen := by decide +kernel }
  hlast := by decide +kernel
  trailer := []
  crs := 0

/-- The body cut in its data, and the start of the next response. -/
theorem decodeAll_cut :
    decodeAll (freshDecoder false) [ascii "2;x\r\na", ascii "b\r\n0;x\r\n", ascii "HTTP"] =
      some (.complete (ascii "ab") (ascii "HTTP")) :=
  decodeAll_chunkedBody sampleBody false (ascii "HTTP") (by decide +kernel)

end Body

end Rastreo.Net.Chunked
