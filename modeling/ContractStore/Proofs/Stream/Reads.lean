import ContractStore.Wire.Decode

/-!
Reading back what was written. A reader reads a value from bytes when it takes exactly these bytes
off the front, whatever follows them. Readers compose the way the bytes do.
-/
namespace ContractStore.Reader
variable {α β : Type}

/-- Takes `bytes` off the front of any input that starts with them and gives `value`. -/
def Reads (reader : Reader α) (bytes : Bytes) (value : α) : Prop :=
  ∀ rest, reader (bytes ++ rest) = .ok value rest

/-- What is read off a front is decided by it, and so is where the front ends. -/
theorem eq_of_reads_append {reader : Reader α} {a b u v : Bytes} {x y : α}
    (h : Reads reader a x) (h' : Reads reader b y) (same : a ++ u = b ++ v) : x = y ∧ u = v := by
  have first := h u
  rw [same, h' v] at first
  cases first
  exact ⟨rfl, rfl⟩

theorem reads_pure (value : α) : Reads (pure value) [] value := fun _ => rfl

theorem reads_bind {reader : Reader α} {next : α → Reader β} {front back : Bytes} {a : α} {b : β}
    (first : Reads reader front a) (second : Reads (next a) back b) :
    Reads (reader >>= next) (front ++ back) b := by
  intro rest
  rw [List.append_assoc, bind_of_ok (first (back ++ rest))]
  exact second rest

theorem reads_map {reader : Reader α} {bytes : Bytes} {a : α} (f : α → β)
    (h : Reads reader bytes a) : Reads (do let x ← reader; return f x) bytes (f a) := by
  have mapped : Reads (reader >>= fun x => pure (f x)) (bytes ++ []) (f a) :=
    reads_bind h (reads_pure (f a))
  rwa [List.append_nil] at mapped

theorem cut_append (bytes rest : Bytes) :
    (bytes ++ rest).cut bytes.length = some (bytes, rest) := by
  simp [Bytes.cut_eq]

theorem reads_read (bytes : Bytes) : Reads (read bytes.length) bytes bytes := by
  intro rest
  unfold read
  rw [cut_append]

theorem reads_raw {n : Nat} (bytes : { bytes : Bytes // bytes.length = n }) :
    Reads (raw n) bytes.1 bytes := by
  obtain ⟨bytes, rfl⟩ := bytes
  intro rest
  unfold raw
  split
  · rename_i taken left found
    rw [cut_append] at found
    cases found
    rfl
  · rename_i found
    rw [cut_append] at found
    cases found

theorem reads_get (byte : UInt8) : Reads get [byte] byte := fun _ => rfl

theorem reads_bits {n : Nat} (pattern : BitVec (8 * n)) :
    Reads (bits n) (Bytes.ofNatLE n pattern.toNat) pattern := by
  have raw := reads_read (Bytes.ofNatLE n pattern.toNat)
  rw [Bytes.length_ofNatLE] at raw
  have number : BitVec.ofNat (8 * n) (Bytes.toNatLE (Bytes.ofNatLE n pattern.toNat)) = pattern := by
    rw [Bytes.ofNat_toNatLE_ofNatLE, BitVec.ofNat_toNat, BitVec.setWidth_eq]
  have mapped := reads_map (fun raw => BitVec.ofNat (8 * n) raw.toNatLE) raw
  rwa [number] at mapped

inductive ReadsAll (item : Reader α) : Bytes → List α → Prop where
  | nil : ReadsAll item [] []
  | cons {front back : Bytes} {x : α} {xs : List α} (head : Reads item front x)
      (tail : ReadsAll item back xs) : ReadsAll item (front ++ back) (x :: xs)

theorem reads_repeated {item : Reader α} {bytes : Bytes} {xs : List α}
    (h : ReadsAll item bytes xs) : Reads (repeated item xs.length) bytes xs := by
  induction h with
  | nil => exact reads_pure []
  | cons head tail ih =>
    rw [List.length_cons, repeated_succ]
    exact reads_bind head (reads_map _ ih)

theorem reads_replicated {item : Reader α} {bytes : Bytes} {n : Nat}
    (xs : { xs : List α // xs.length = n }) (h : ReadsAll item bytes xs.1) :
    Reads (replicated item n) bytes xs := by
  obtain ⟨xs, rfl⟩ := xs
  intro rest
  exact replicated_of_ok (reads_repeated h rest)

theorem whole_of_reads {reader : Reader α} {bytes : Bytes} {value : α}
    (h : Reads reader bytes value) : whole reader bytes = .ok value := by
  have all := h []
  rw [List.append_nil] at all
  simp [whole, all]

end ContractStore.Reader
