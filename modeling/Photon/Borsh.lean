/-
**The wire format of the two payloads (spec §4.1).**

The parser decodes the data of the two noop instructions of a trigger with the
`BorshDeserialize` implementations of `Changelogs` and `PublicTransactionEvent`, which are
derived in a module that is not part of the sources.  This module models them from the
layout of the spec: little-endian integers, a `u32` length before every sequence, a `u32`
variant tag before a tagged union, fixed arrays as their bytes.  A decoder reads a value from
the front of its input and leaves the rest, which the parser ignores.

A codec is a structure that carries its law (`Photon.Borsh.Codec.decode_eq_ok`): decoding
accepts exactly an encoding followed by anything, and returns the value encoded.  Each
combinator proves the law once, so the codecs of the payloads, built from them, have it for free.

Main definitions:

* `Photon.Borsh.Codec` — an encoder and a decoder with the law;
* `Photon.Borsh.Codec.fixed`, `Photon.Borsh.Codec.map`, `Photon.Borsh.Codec.prod`,
  `Photon.Borsh.Codec.vec`, `Photon.Borsh.Codec.variant0` — `[u8; n]`, a type in bijection with
  another, a pair, a length-prefixed sequence, a tagged union with the one variant `0`;
* `Photon.Borsh.u32`, `Photon.Borsh.u64` — little-endian integers;
* `Photon.Borsh.changelogs`, `Photon.Borsh.publicTransactionEvent` — the two payloads;
* `Photon.Borsh.deserializers` — the decoders the parser takes;
* `Photon.Borsh.Codec.embed`, `Photon.Borsh.compressedAccount`,
  `Photon.Borsh.compressedAccountWithMerkleContext` — one layout of the two kinds of account,
  which the spec leaves opaque, for the examples of the modules above this one.

Main results:

* `Photon.Borsh.Codec.deserialize_eq_ok` — **a payload decodes to a value exactly when it starts
  with the value's encoding**;
* `Photon.Borsh.Codec.deserialize_encode` — the round trip of the spec's P8, trailing bytes
  allowed;
* `Photon.Borsh.Codec.eq_of_encode_append` — an encoding fixes where the next field starts;
* `Photon.Borsh.Codec.decode_eq_error_of_truncated` — a truncated payload is refused.

What the parser makes of encoded payloads is `Photon.Payloads`.
-/

import Mathlib
import Photon.Types

set_option relaxedAutoImplicit false
set_option autoImplicit false

namespace Photon

namespace Borsh

variable {α β ε : Type}

theorem except_bind_eq_ok {x : Except ε α} {f : α → Except ε β} {b : β} :
    x >>= f = .ok b ↔ ∃ a, x = .ok a ∧ f a = .ok b := by
  cases x <;> simp only [bind, Except.bind, Except.ok.injEq, reduceCtorEq, false_and, exists_false,
    exists_eq_left']

theorem except_map_eq_ok {x : Except ε α} {f : α → β} {b : β} :
    f <$> x = .ok b ↔ ∃ a, x = .ok a ∧ f a = b := by
  cases x <;> simp only [Functor.map, Except.map, Except.ok.injEq, reduceCtorEq, false_and,
    exists_false, exists_eq_left']

/-! ### Little-endian numbers -/

/-- The `n` little-endian bytes of `x`: its low `8 n` bits, lowest byte first. -/
def leBytes : ℕ → ℕ → List UInt8
  | 0, _ => []
  | n + 1, x => (x % 256).toUInt8 :: leBytes n (x / 256)

/-- The number that little-endian bytes stand for. -/
def ofLeBytes : List UInt8 → ℕ
  | [] => 0
  | b :: bs => b.toNat + 256 * ofLeBytes bs

@[simp] theorem length_leBytes : ∀ n x, (leBytes n x).length = n
  | 0, _ => rfl
  | n + 1, x => by simp [leBytes, length_leBytes n]

theorem toNat_toUInt8_mod (x : ℕ) : (x % 256).toUInt8.toNat = x % 256 :=
  UInt8.toNat_ofNat_of_lt (Nat.mod_lt _ (by decide))

theorem ofLeBytes_lt : ∀ bs : List UInt8, ofLeBytes bs < 256 ^ bs.length
  | [] => by simp [ofLeBytes]
  | b :: bs => by
    have := ofLeBytes_lt bs
    have : b.toNat < 256 := b.toNat_lt_size
    simp only [ofLeBytes, List.length_cons, Nat.pow_succ]
    omega

theorem ofLeBytes_leBytes : ∀ n x, ofLeBytes (leBytes n x) = x % 256 ^ n
  | 0, x => by simp [leBytes, ofLeBytes, Nat.mod_one]
  | n + 1, x => by
    rw [leBytes, ofLeBytes, ofLeBytes_leBytes n, toNat_toUInt8_mod, Nat.pow_succ', Nat.mod_mul]

theorem leBytes_ofLeBytes : ∀ bs : List UInt8, leBytes bs.length (ofLeBytes bs) = bs
  | [] => rfl
  | b :: bs => by
    have : b.toNat < 256 := b.toNat_lt_size
    have hb : (b.toNat + 256 * ofLeBytes bs) % 256 = b.toNat := by omega
    have hbs : (b.toNat + 256 * ofLeBytes bs) / 256 = ofLeBytes bs := by omega
    rw [List.length_cons, leBytes, ofLeBytes, hb, hbs, leBytes_ofLeBytes bs]
    congr
    exact UInt8.toNat.inj (UInt8.toNat_ofNat_of_lt this)

theorem ofLeBytes_toList_lt {w : ℕ} (b : Bytes w) : ofLeBytes b.toList < 256 ^ w := by
  simpa [b.length_eq] using ofLeBytes_lt b.toList

theorem leBytes_ofLeBytes_toList {w : ℕ} (b : Bytes w) :
    leBytes w (ofLeBytes b.toList) = b.toList := by
  simpa [b.length_eq] using leBytes_ofLeBytes b.toList

/-! ### Codecs -/

/-- Modelled from the spec: the text of the `io::Error` of a short read. -/
def unexpectedLength : String := "Unexpected length of input"

/-- Modelled from the spec: a Borsh encoding of `α`.  The encoder fails on a sequence too long
for its `u32` count; the decoder reads a value from the front of its input and returns the rest.
The law: decoding accepts exactly an encoding followed by anything, and returns what was
encoded. -/
structure Codec (α : Type) where
  encode : α → Except String (List UInt8)
  decode : List UInt8 → Except String (α × List UInt8)
  decode_eq_ok : ∀ {bytes a rest},
    decode bytes = .ok (a, rest) ↔ ∃ pre, encode a = .ok pre ∧ bytes = pre ++ rest

namespace Codec

/-- Modelled from the spec: `[u8; n]`, its bytes as they are. -/
def fixed (n : ℕ) : Codec (Bytes n) where
  encode b := .ok b.toList
  decode bytes :=
    if h : n ≤ bytes.length then .ok (⟨bytes.take n, by simp [h]⟩, bytes.drop n)
    else .error unexpectedLength
  decode_eq_ok {bytes a rest} := by
    by_cases h : n ≤ bytes.length
    · simp only [dif_pos h, Except.ok.injEq, Prod.mk.injEq, exists_eq_left', Bytes.ext_iff]
      constructor
      · rintro ⟨ha, rfl⟩
        rw [← ha, List.take_append_drop]
      · rintro rfl
        exact ⟨List.take_left' a.length_eq, List.drop_left' a.length_eq⟩
    · simp only [dif_neg h, false_iff, reduceCtorEq]
      rintro ⟨_, ⟨⟩, rfl⟩
      simp [a.length_eq] at h

/-- Modelled from the spec: the encoding of a type in bijection with the type of `c`. -/
def map (c : Codec β) (e : β ≃ α) : Codec α where
  encode a := c.encode (e.symm a)
  decode bytes := (fun r => (e r.1, r.2)) <$> c.decode bytes
  decode_eq_ok {bytes a rest} := by
    rw [except_map_eq_ok, ← c.decode_eq_ok]
    constructor
    · rintro ⟨⟨b, r⟩, h, he⟩
      obtain ⟨rfl, rfl⟩ := Prod.mk.inj he
      simpa using h
    · exact fun h => ⟨(e.symm a, rest), h, by simp⟩

/-- Modelled from the spec: a pair, the first field then the second. -/
def prod (c₁ : Codec α) (c₂ : Codec β) : Codec (α × β) where
  encode x := c₁.encode x.1 >>= fun p => c₂.encode x.2 >>= fun q => pure (p ++ q)
  decode bytes := c₁.decode bytes >>= fun x => c₂.decode x.2 >>= fun y => pure ((x.1, y.1), y.2)
  decode_eq_ok {bytes x rest} := by
    simp only [except_bind_eq_ok, Prod.exists, c₁.decode_eq_ok, c₂.decode_eq_ok, pure,
      Except.pure, Except.ok.injEq, Prod.mk.injEq]
    constructor
    · rintro ⟨a, r, ⟨p, hp, rfl⟩, b, r', ⟨q, hq, rfl⟩, rfl, rfl⟩
      exact ⟨p ++ q, ⟨p, hp, q, hq, rfl⟩, (List.append_assoc _ _ _).symm⟩
    · rintro ⟨_, ⟨p, hp, q, hq, rfl⟩, rfl⟩
      exact ⟨x.1, q ++ rest, ⟨p, hp, by simp⟩, x.2, rest, ⟨q, hq, rfl⟩, rfl, rfl⟩

end Codec

/-! ### Integers -/

/-- The little-endian bytes of a `u32`. -/
def u32Equiv : Bytes 4 ≃ UInt32 where
  toFun b := UInt32.ofNat (ofLeBytes b.toList)
  invFun x := ⟨leBytes 4 x.toNat, length_leBytes _ _⟩
  left_inv b := Bytes.ext <| by
    dsimp only
    rw [UInt32.toNat_ofNat_of_lt (ofLeBytes_toList_lt b), leBytes_ofLeBytes_toList]
  right_inv x := UInt32.toNat.inj <| by
    dsimp only
    rw [ofLeBytes_leBytes, Nat.mod_eq_of_lt (show x.toNat < 256 ^ 4 from x.toNat_lt_size),
      UInt32.toNat_ofNat_of_lt x.toNat_lt_size]

/-- The little-endian bytes of a `u64`. -/
def u64Equiv : Bytes 8 ≃ UInt64 where
  toFun b := UInt64.ofNat (ofLeBytes b.toList)
  invFun x := ⟨leBytes 8 x.toNat, length_leBytes _ _⟩
  left_inv b := Bytes.ext <| by
    dsimp only
    rw [UInt64.toNat_ofNat_of_lt (ofLeBytes_toList_lt b), leBytes_ofLeBytes_toList]
  right_inv x := UInt64.toNat.inj <| by
    dsimp only
    rw [ofLeBytes_leBytes, Nat.mod_eq_of_lt (show x.toNat < 256 ^ 8 from x.toNat_lt_size),
      UInt64.toNat_ofNat_of_lt x.toNat_lt_size]

/-- Modelled from the spec: a `u32`, four little-endian bytes. -/
def u32 : Codec UInt32 := (Codec.fixed 4).map u32Equiv

/-- Modelled from the spec: a `u64`, eight little-endian bytes. -/
def u64 : Codec UInt64 := (Codec.fixed 8).map u64Equiv

@[simp] theorem u32_encode (x : UInt32) : u32.encode x = .ok (leBytes 4 x.toNat) := rfl

/-! ### Sequences and tagged unions -/

/-- Modelled from the spec: the error of a sequence too long for its `u32` count. -/
def lengthOverflow : String := "Sequence too long for a u32 length"

namespace Codec

/-- Modelled from the spec: the elements of a sequence, one after another. -/
def encodeAll (c : Codec α) : List α → Except String (List UInt8)
  | [] => .ok []
  | a :: as => c.encode a >>= fun p => encodeAll c as >>= fun q => pure (p ++ q)

/-- Modelled from the spec: `n` elements read one after another. -/
def decodeMany (c : Codec α) : ℕ → List UInt8 → Except String (List α × List UInt8)
  | 0, bytes => .ok ([], bytes)
  | n + 1, bytes =>
    c.decode bytes >>= fun x => decodeMany c n x.2 >>= fun y => pure (x.1 :: y.1, y.2)

theorem decodeMany_eq_ok (c : Codec α) : ∀ n bytes l rest, decodeMany c n bytes = .ok (l, rest) ↔
    l.length = n ∧ ∃ pre, encodeAll c l = .ok pre ∧ bytes = pre ++ rest
  | 0, bytes, [], rest => by simp [decodeMany, encodeAll]
  | 0, bytes, _ :: _, rest => by simp [decodeMany]
  | n + 1, bytes, [], rest => by
    simp only [decodeMany, except_bind_eq_ok, pure, Except.pure, Except.ok.injEq, Prod.mk.injEq,
      reduceCtorEq, false_and, and_false, exists_false, List.length_nil, false_iff]
  | n + 1, bytes, a :: l, rest => by
    simp only [decodeMany, encodeAll, except_bind_eq_ok, Prod.exists, c.decode_eq_ok,
      decodeMany_eq_ok c n, pure, Except.pure, Except.ok.injEq, Prod.mk.injEq, List.cons.injEq,
      List.length_cons, Nat.add_right_cancel_iff]
    constructor
    · rintro ⟨a, r, ⟨p, hp, rfl⟩, l, r', ⟨rfl, q, hq, rfl⟩, ⟨rfl, rfl⟩, rfl⟩
      exact ⟨rfl, p ++ q, ⟨p, hp, q, hq, rfl⟩, (List.append_assoc _ _ _).symm⟩
    · rintro ⟨hl, _, ⟨p, hp, q, hq, rfl⟩, rfl⟩
      exact ⟨a, q ++ rest, ⟨p, hp, by simp⟩, l, rest, ⟨hl, q, hq, rfl⟩, ⟨rfl, rfl⟩, rfl⟩

/-- Modelled from the spec: a sequence, its `u32` length then its elements. -/
def vec (c : Codec α) : Codec (List α) where
  encode l :=
    if l.length < UInt32.size then encodeAll c l >>= fun q => pure (leBytes 4 l.length ++ q)
    else .error lengthOverflow
  decode bytes := u32.decode bytes >>= fun x => decodeMany c x.1.toNat x.2
  decode_eq_ok {bytes l rest} := by
    simp only [except_bind_eq_ok, Prod.exists, u32.decode_eq_ok, u32_encode, Except.ok.injEq,
      exists_eq_left', decodeMany_eq_ok]
    by_cases h : l.length < UInt32.size
    · simp only [if_pos h, except_bind_eq_ok, pure, Except.pure, Except.ok.injEq]
      constructor
      · rintro ⟨n, r, rfl, hn, q, hq, rfl⟩
        exact ⟨_, ⟨q, hq, rfl⟩, by rw [hn, List.append_assoc]⟩
      · rintro ⟨_, ⟨q, hq, rfl⟩, rfl⟩
        exact ⟨UInt32.ofNat l.length, q ++ rest, by simp [UInt32.toNat_ofNat_of_lt h],
          (UInt32.toNat_ofNat_of_lt h).symm, q, hq, rfl⟩
    · simp only [if_neg h, reduceCtorEq, false_and, exists_false, iff_false]
      rintro ⟨n, r, -, hn, -⟩
      exact h (hn ▸ n.toNat_lt_size)

/-- Modelled from the spec: the body of a tagged union whose only variant has tag `0`; any other
tag is refused. -/
def variantBody (c : Codec α) (tag : UInt32) (bytes : List UInt8) :
    Except String (α × List UInt8) :=
  if tag = 0 then c.decode bytes else .error s!"Unexpected variant tag: {tag}"

theorem variantBody_eq_ok (c : Codec α) {tag bytes a rest} :
    variantBody c tag bytes = .ok (a, rest) ↔ tag = 0 ∧ c.decode bytes = .ok (a, rest) := by
  unfold variantBody
  split_ifs with h <;> simp [h]

/-- Modelled from the spec: a tagged union with the one variant `0`, its `u32` tag then its
body. -/
def variant0 (c : Codec α) : Codec α where
  encode a := c.encode a >>= fun p => pure (leBytes 4 0 ++ p)
  decode bytes := u32.decode bytes >>= fun x => variantBody c x.1 x.2
  decode_eq_ok {bytes a rest} := by
    simp only [except_bind_eq_ok, Prod.exists, u32.decode_eq_ok, u32_encode, Except.ok.injEq,
      exists_eq_left', variantBody_eq_ok, c.decode_eq_ok, pure, Except.pure]
    constructor
    · rintro ⟨_, r, rfl, rfl, p, hp, rfl⟩
      exact ⟨_, ⟨p, hp, rfl⟩, (List.append_assoc _ _ _).symm⟩
    · rintro ⟨_, ⟨p, hp, rfl⟩, rfl⟩
      exact ⟨0, p ++ rest, by simp, rfl, p, hp, rfl⟩

/-- `T::deserialize(&mut data)`: the value at the front of the data; the rest is ignored. -/
def deserialize (c : Codec α) (bytes : List UInt8) : Except String α :=
  Prod.fst <$> c.decode bytes

/-- **A payload decodes to a value exactly when it starts with the value's encoding.** -/
theorem deserialize_eq_ok (c : Codec α) {bytes a} :
    c.deserialize bytes = .ok a ↔ ∃ pre rest, c.encode a = .ok pre ∧ bytes = pre ++ rest := by
  simp only [deserialize, except_map_eq_ok, Prod.exists, exists_and_right, exists_eq_right,
    c.decode_eq_ok]
  exact exists_comm

/-- **Round trip**: an encoding decodes to what was encoded, whatever follows it. -/
theorem deserialize_encode (c : Codec α) {a pre} (h : c.encode a = .ok pre) (rest : List UInt8) :
    c.deserialize (pre ++ rest) = .ok a :=
  c.deserialize_eq_ok.2 ⟨pre, rest, h, rfl⟩

/-- Two encodings at the front of one input are the same: the value and the field boundary
are fixed by the bytes, so the fields after it cannot be misaligned. -/
theorem eq_of_encode_append (c : Codec α) {a b p q r s}
    (ha : c.encode a = .ok p) (hb : c.encode b = .ok q) (h : p ++ r = q ++ s) :
    a = b ∧ p = q := by
  have hab : (a, r) = (b, s) :=
    Except.ok.inj ((c.decode_eq_ok.2 ⟨p, ha, rfl⟩).symm.trans (c.decode_eq_ok.2 ⟨q, hb, h⟩))
  obtain ⟨rfl, rfl⟩ := Prod.mk.inj hab
  exact ⟨rfl, Except.ok.inj (ha.symm.trans hb)⟩

/-- **A truncated encoding is refused** (spec §4.1): decoding a proper prefix of an encoding
fails. -/
theorem decode_eq_error_of_truncated (c : Codec α) {a : α} {p q r : List UInt8}
    (ha : c.encode a = .ok p) (hp : p = q ++ r) (hr : r ≠ []) : ∃ e, c.decode q = .error e := by
  cases hq : c.decode q with
  | error e => exact ⟨e, rfl⟩
  | ok x =>
    obtain ⟨p', hb, rfl⟩ := c.decode_eq_ok.1 hq
    obtain ⟨rfl, rfl⟩ := c.eq_of_encode_append ha hb (show p ++ [] = p' ++ (x.2 ++ r) by simp [hp])
    simp only [List.append_assoc, List.self_eq_append_right, List.append_eq_nil] at hp
    exact absurd hp.2 hr

end Codec

/-! ### The two payloads -/

/-- Modelled from the spec: `PathNode = node:[u8;32], index:u64`. -/
def pathNode : Codec PathNode :=
  (Codec.prod (Codec.fixed 32) u64).map
    ⟨fun x => ⟨x.1, x.2⟩, fun n => (n.node, n.index), fun _ => rfl, fun _ => rfl⟩

/-- Modelled from the spec: `ChangelogEventV1 = id:[u8;32], paths:seq<seq<PathNode>>, seq:u64,
index:u64`. -/
def changelogEventV1 : Codec ChangelogEventV1 :=
  (Codec.prod (Codec.fixed 32)
      (Codec.prod pathNode.vec.vec (Codec.prod u64 u64))).map
    ⟨fun x => ⟨x.1, x.2.1, x.2.2.1, x.2.2.2⟩, fun e => (e.id, e.paths, e.seq, e.index),
      fun _ => rfl, fun _ => rfl⟩

/-- Modelled from the spec: `ChangelogEvent`, a tagged union whose tag `0` selects v1; the
derived decoder of the one-variant enum refuses every other tag. -/
def changelogEvent : Codec ChangelogEvent :=
  changelogEventV1.variant0.map ⟨.v1, fun | .v1 e => e, fun _ => rfl, fun | .v1 _ => rfl⟩

/-- Modelled from the spec: `Changelogs = seq<ChangelogEvent>`. -/
def changelogs : Codec Changelogs :=
  changelogEvent.vec.map ⟨.mk, Changelogs.changelogs, fun _ => rfl, fun _ => rfl⟩

/-- Modelled from the spec: a public key, its 32 bytes. -/
def pubkey : Codec Pubkey :=
  (Codec.fixed 32).map ⟨.mk, Pubkey.toBytes, fun _ => rfl, fun _ => rfl⟩

/-- Modelled from the spec: the five leading fields of `PublicTransactionEvent`, each a sequence;
the layouts of the two kinds of account, which the spec leaves opaque, are parameters.  The
tail fields are not read: they are part of the rest the parser ignores. -/
def publicTransactionEvent (input : Codec CompressedAccountWithMerkleContext)
    (output : Codec CompressedAccount) : Codec PublicTransactionEvent :=
  (Codec.prod (Codec.fixed 32).vec (Codec.prod (Codec.fixed 32).vec
      (Codec.prod input.vec (Codec.prod output.vec pubkey.vec)))).map
    ⟨fun x => ⟨x.1, x.2.1, x.2.2.1, x.2.2.2.1, x.2.2.2.2⟩,
      fun ev => (ev.inputCompressedAccountHashes, ev.outputCompressedAccountHashes,
        ev.inputCompressedAccounts, ev.outputCompressedAccounts, ev.pubkeyArray),
      fun _ => rfl, fun _ => rfl⟩

/-- Modelled from the spec: the decoders the parser is given, built from the two codecs. -/
def deserializers (input : Codec CompressedAccountWithMerkleContext)
    (output : Codec CompressedAccount) : Deserializers :=
  ⟨changelogs.deserialize, (publicTransactionEvent input output).deserialize⟩

example : changelogs.encode ⟨[]⟩ = .ok [0, 0, 0, 0] := rfl

example : changelogs.deserialize [0, 0, 0, 0, 9] = .ok ⟨[]⟩ := rfl

example : changelogs.deserialize [1, 0, 0, 0, 1, 0, 0, 0] =
    .error "Unexpected variant tag: 1" := rfl

/-! ### One layout of the accounts -/

/-- The error of a value that a layout cannot hold. -/
def outOfRange : String := "Value out of range"

/-- A `u8`, one byte. -/
def u8 : Codec UInt8 where
  encode b := .ok [b]
  decode
    | b :: rest => .ok (b, rest)
    | [] => .error unexpectedLength
  decode_eq_ok {bytes b rest} := by
    cases bytes <;> simp [eq_comm]

/-- A codec through an embedding `f` of `β` into `α`, with `g` its partial inverse: a value in
the image encodes as its preimage, and a value outside it does not encode. -/
def Codec.embed (c : Codec β) (f : β → α) (g : α → Option β)
    (hg : ∀ a b, g a = some b ↔ f b = a) : Codec α where
  encode a := match g a with
    | some b => c.encode b
    | none => .error outOfRange
  decode bytes := (fun r => (f r.1, r.2)) <$> c.decode bytes
  decode_eq_ok {bytes a rest} := by
    rw [except_map_eq_ok]
    cases h : g a with
    | none =>
      simp only [h, reduceCtorEq, false_and, exists_false, iff_false, not_exists, not_and,
        Prod.forall, Prod.mk.injEq]
      rintro b r - rfl -
      simp [(hg _ b).2 rfl] at h
    | some b =>
      simp only [h, ← c.decode_eq_ok, Prod.exists]
      constructor
      · rintro ⟨b', r, hd, rfl, rfl⟩
        obtain rfl : b' = b := Option.some.inj (((hg _ b').2 rfl).symm.trans h)
        exact hd
      · exact fun hd => ⟨b, rest, hd, by rw [(hg a b).1 h]⟩

/-- One layout of a tree index, for the examples: a `u8`. -/
def treeIndex : Codec ℕ :=
  u8.embed UInt8.toNat (fun n => if h : n < UInt8.size then some ⟨⟨n, h⟩⟩ else none)
    fun n b => by
      by_cases h : n < UInt8.size
      · simp only [dif_pos h, Option.some.injEq]
        constructor <;> rintro rfl <;> rfl
      · simp only [dif_neg h, reduceCtorEq, false_iff]
        rintro rfl
        exact h b.toNat_lt_size

/-- One layout of a compressed account, for the examples (the spec leaves it opaque): its
payload as a sequence of bytes. -/
def compressedAccount : Codec CompressedAccount :=
  u8.vec.map ⟨.mk, CompressedAccount.payload, fun _ => rfl, fun _ => rfl⟩

/-- One layout of an input account, for the examples: the compressed account, then the index of
its tree in `pubkey_array` as a `u8`. -/
def compressedAccountWithMerkleContext : Codec CompressedAccountWithMerkleContext :=
  (Codec.prod compressedAccount treeIndex).map
    ⟨fun x => ⟨x.1, x.2⟩, fun a => (a.compressedAccount, a.merkleTreePubkeyIndex),
      fun _ => rfl, fun _ => rfl⟩

example : compressedAccountWithMerkleContext.encode ⟨⟨[5]⟩, 2⟩ = .ok [1, 0, 0, 0, 5, 2] := rfl

example : compressedAccountWithMerkleContext.encode ⟨⟨[]⟩, 256⟩ = .error outOfRange := rfl

end Borsh

end Photon
