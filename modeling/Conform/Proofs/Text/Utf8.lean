import Conform.Text.Encoding

/-! Strict and lenient reading of bytes: they agree on what both read, and replacement characters are
what tells lenient readings of undecodable bytes apart from others. -/
namespace Conform.Text

namespace Utf8

theorem map_of_decodePieces {ps : List Piece} {start : Nat} {cs : List Char}
    (h : Utf8.decodePieces ps start = .ok cs) :
    (ps.map fun
      | .scalar c _ => c
      | .fault .. => '\ufffd') = cs := by
  induction ps generalizing start cs with
  | nil =>
    cases h
    rfl
  | cons p ps ih =>
    cases p with
    | fault reason more => cases h
    | scalar c more =>
      unfold Utf8.decodePieces at h
      cases later : Utf8.decodePieces ps (start + more + 1) with
      | error e =>
        rw [later] at h
        cases h
      | ok ds =>
        rw [later] at h
        cases h
        rw [List.map_cons, ih later]

theorem exists_fault_of_decodePieces {ps : List Piece} {start : Nat} {e : Nat × ByteFault × Nat}
    (h : decodePieces ps start = .error e) : ∃ reason more, Piece.fault reason more ∈ ps := by
  induction ps generalizing start e with
  | nil => cases h
  | cons p ps ih =>
    cases p with
    | fault reason more => exact ⟨reason, more, .head _⟩
    | scalar c more =>
      unfold decodePieces at h
      cases later : decodePieces ps (start + more + 1) with
      | ok ds =>
        rw [later] at h
        cases h
      | error f =>
        obtain ⟨reason, more, mem⟩ := ih later
        exact ⟨reason, more, .tail _ mem⟩

theorem piece_one {n : Nat} (h : n ≤ 127) (rest : List Nat) :
    piece n rest = .scalar (Char.ofNat n) 0 := by
  unfold piece
  rw [if_pos (by omega)]

theorem isContinuation_low (n : Nat) : isContinuation (n % 64 + 128) = true := by
  simp only [isContinuation, Bool.and_eq_true, decide_eq_true_eq]
  omega

theorem piece_two {n : Nat} (low : 127 < n) (high : n ≤ 2047) (rest : List Nat) :
    piece (n / 64 % 32 + 192) ((n % 64 + 128) :: rest) = .scalar (Char.ofNat n) 1 := by
  have code : (n / 64 % 32 + 192 - 0xc0) * 0x40 + (n % 64 + 128 - 0x80) = n := by omega
  unfold piece
  rw [if_neg (by omega), if_neg (by omega), if_pos (by omega)]
  simp only [isContinuation_low, code, if_true]

theorem piece_three {n : Nat} (low : 2047 < n) (high : n ≤ 65535) (valid : n < 0xd800 ∨ 0xdfff < n)
    (rest : List Nat) :
    piece (n / 4096 % 16 + 224) ((n / 64 % 64 + 128) :: (n % 64 + 128) :: rest) =
      .scalar (Char.ofNat n) 2 := by
  have code : (n / 4096 % 16 + 224 - 0xe0) * 0x1000 + (n / 64 % 64 + 128 - 0x80) * 0x40 +
      (n % 64 + 128 - 0x80) = n := by omega
  have second : secondAllowed (n / 4096 % 16 + 224) (n / 64 % 64 + 128) = true := by
    unfold secondAllowed
    rw [isContinuation_low, Bool.true_and]
    split
    · simp only [decide_eq_true_eq]
      omega
    split
    · simp only [decide_eq_true_eq]
      omega
    rw [if_neg (by omega), if_neg (by omega)]
  unfold piece
  rw [if_neg (by omega), if_neg (by omega), if_neg (by omega), if_pos (by omega)]
  simp only [second, isContinuation_low, code, Bool.not_true, if_true, Bool.false_eq_true, if_false]

theorem piece_four {n : Nat} (low : 65535 < n) (high : n < 0x110000) (rest : List Nat) :
    piece (n / 262144 % 8 + 240)
      ((n / 4096 % 64 + 128) :: (n / 64 % 64 + 128) :: (n % 64 + 128) :: rest) =
      .scalar (Char.ofNat n) 3 := by
  have code : (n / 262144 % 8 + 240 - 0xf0) * 0x40000 + (n / 4096 % 64 + 128 - 0x80) * 0x1000 +
      (n / 64 % 64 + 128 - 0x80) * 0x40 + (n % 64 + 128 - 0x80) = n := by omega
  have second : secondAllowed (n / 262144 % 8 + 240) (n / 4096 % 64 + 128) = true := by
    unfold secondAllowed
    rw [isContinuation_low, Bool.true_and, if_neg (by omega), if_neg (by omega)]
    split
    · simp only [decide_eq_true_eq]
      omega
    split
    · simp only [decide_eq_true_eq]
      omega
    rfl
  unfold piece
  rw [if_neg (by omega), if_neg (by omega), if_neg (by omega), if_neg (by omega),
    if_pos (by omega)]
  simp only [second, isContinuation_low, code, Bool.not_true, if_true, Bool.false_eq_true, if_false]

/-- Bytes that make one piece, whatever comes after them. -/
theorem pieces_cons_append {b : UInt8} {bs : List UInt8} {p : Piece}
    (front : ∀ ns, piece b.toNat (bs.map UInt8.toNat ++ ns) = p) (short : bs.length ≤ 3)
    (more : p.more = bs.length) (rest : List UInt8) :
    pieces (b :: bs ++ rest) = p :: pieces rest := by
  have ahead : ((bs ++ rest).take 3).map UInt8.toNat =
      bs.map UInt8.toNat ++ (rest.take (3 - bs.length)).map UInt8.toNat := by
    rw [List.take_append, List.take_of_length_le short, List.map_append]
  rw [List.cons_append, pieces, ahead, front, more, List.drop_left]

/-- The piece that the bytes of a character are read as. -/
def pieceOf (c : Char) : Piece := .scalar c ((String.utf8EncodeChar c).length - 1)

theorem pieces_utf8EncodeChar_append (c : Char) (rest : List UInt8) :
    pieces (String.utf8EncodeChar c ++ rest) = pieceOf c :: pieces rest := by
  have char : Char.ofNat c.val.toNat = c := Char.ofNat_toNat c
  have byte {n : Nat} (h : n < 256) : (UInt8.ofNat n).toNat = n := UInt8.toNat_ofNat_of_lt' h
  have valid : c.val.toNat < 0xd800 ∨ 0xdfff < c.val.toNat ∧ c.val.toNat < 0x110000 := c.valid
  unfold pieceOf String.utf8EncodeChar
  dsimp only
  generalize c.val.toNat = n at char valid
  split
  · next h =>
    refine pieces_cons_append (fun ns => ?_) (by decide) rfl rest
    rw [byte (by omega), piece_one h, char]
    rfl
  split
  · next low high =>
    refine pieces_cons_append (fun ns => ?_) (by simp) rfl rest
    simp only [List.map_cons, List.map_nil, List.cons_append, List.nil_append]
    rw [byte (by omega), byte (by omega), piece_two (by omega) high, char]
    rfl
  split
  · next low high =>
    refine pieces_cons_append (fun ns => ?_) (by simp) rfl rest
    simp only [List.map_cons, List.map_nil, List.cons_append, List.nil_append]
    rw [byte (by omega), byte (by omega), byte (by omega),
      piece_three (by omega) high (by omega), char]
    rfl
  · refine pieces_cons_append (fun ns => ?_) (by simp) rfl rest
    simp only [List.map_cons, List.map_nil, List.cons_append, List.nil_append]
    rw [byte (by omega), byte (by omega), byte (by omega), byte (by omega),
      piece_four (by omega) (by omega), char]
    rfl

/-- The bytes of characters. -/
def encode (cs : List Char) : List UInt8 := cs.flatMap String.utf8EncodeChar

theorem pieces_encode_append (cs : List Char) (rest : List UInt8) :
    pieces (encode cs ++ rest) = cs.map pieceOf ++ pieces rest := by
  induction cs with
  | nil => rfl
  | cons c cs ih =>
    rw [encode, List.flatMap_cons, List.append_assoc, pieces_utf8EncodeChar_append, ← encode, ih]
    rfl

theorem pieces_encode (cs : List Char) : pieces (encode cs) = cs.map pieceOf := by
  have h := pieces_encode_append cs []
  rwa [List.append_nil, pieces, List.append_nil] at h

/-- A byte that no character has, in front of others. -/
theorem pieces_unused_cons (bs : List UInt8) :
    pieces (0xff :: bs) = .fault .invalidStart 0 :: pieces bs := by
  rw [pieces]
  rfl

theorem decodeLenient_encode_unused (cs ds : List Char) :
    decodeLenient (encode cs ++ 0xff :: encode ds) = cs ++ '\ufffd' :: ds := by
  unfold decodeLenient
  rw [pieces_encode_append, pieces_unused_cons, pieces_encode, List.map_append, List.map_cons,
    List.map_map, List.map_map]
  have same : cs.map id ++ '\ufffd' :: ds.map id = cs ++ '\ufffd' :: ds := by
    rw [List.map_id, List.map_id]
  exact same

theorem decodePieces_fault (cs : List Char) (reason : ByteFault) (more start : Nat)
    (ps : List Piece) :
    decodePieces (cs.map pieceOf ++ .fault reason more :: ps) start =
      .error (start + (encode cs).length, reason, more + 1) := by
  induction cs generalizing start with
  | nil => rfl
  | cons c cs ih =>
    have size : start + ((String.utf8EncodeChar c).length - 1) + 1 + (encode cs).length =
        start + (encode (c :: cs)).length := by
      have := String.length_utf8EncodeChar c
      rw [encode, encode, List.flatMap_cons, List.length_append]
      have := Char.utf8Size_pos c
      omega
    rw [List.map_cons, List.cons_append, pieceOf, decodePieces, ih, size]
    rfl

end Utf8

/-- What can be read strictly is read alike leniently. -/
theorem decodeLenient_of_decodeUtf8 {bs : List UInt8} {cs : List Char}
    (h : decodeUtf8 bs = .ok cs) : Utf8.decodeLenient bs = cs := by
  unfold decodeUtf8 at h
  cases decoded : Utf8.decodePieces (Utf8.pieces bs) 0 with
  | error e =>
    rw [decoded] at h
    cases h
  | ok ds =>
    rw [decoded] at h
    cases h
    exact Utf8.map_of_decodePieces decoded

theorem replaced_of_decodeUtf8 {bs : List UInt8} {e : DecodeError}
    (h : decodeUtf8 bs = .error e) : '\ufffd' ∈ Utf8.decodeLenient bs := by
  unfold decodeUtf8 at h
  cases decoded : Utf8.decodePieces (Utf8.pieces bs) 0 with
  | ok cs =>
    rw [decoded] at h
    cases h
  | error f =>
    obtain ⟨reason, more, mem⟩ := Utf8.exists_fault_of_decodePieces decoded
    exact List.mem_map.mpr ⟨_, mem, rfl⟩

/-- A byte that no character has is found where it stands. -/
theorem decodeUtf8_encode_unused (cs : List Char) (bs : List UInt8) :
    decodeUtf8 (Utf8.encode cs ++ 0xff :: bs) =
      .error ⟨"utf-8", Utf8.encode cs ++ 0xff :: bs, (Utf8.encode cs).length, 1, .invalidStart⟩ := by
  unfold decodeUtf8
  rw [Utf8.pieces_encode_append, Utf8.pieces_unused_cons, Utf8.decodePieces_fault, Nat.zero_add]

/-- A text is what undecodable bytes are read as leniently, exactly if it has a replacement character. -/
theorem exists_undecodable_iff {cs : List Char} :
    (∃ bs e, decodeUtf8 bs = .error e ∧ Utf8.decodeLenient bs = cs) ↔ '\ufffd' ∈ cs := by
  constructor
  · rintro ⟨bs, e, undecodable, rfl⟩
    exact replaced_of_decodeUtf8 undecodable
  · intro mem
    obtain ⟨before, after, rfl⟩ := List.append_of_mem mem
    exact ⟨_, _, decodeUtf8_encode_unused before (Utf8.encode after),
      Utf8.decodeLenient_encode_unused before after⟩

end Conform.Text
