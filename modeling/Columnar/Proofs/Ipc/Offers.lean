import Columnar.Proofs.Ipc.Sink

/-!
# Several offers in a row

A call offers parts to its sink one after the other, and stops at the first that is not accepted
whole. Whatever the sink does, it then holds a first part of all the bytes in a row.
-/

namespace Columnar.Ipc

/-- The bytes of parts in a row. -/
def joined (parts : List Bytes) : List UInt8 :=
  parts.flatMap Array.toList

@[simp] theorem joined_nil : joined [] = [] :=
  rfl

@[simp] theorem joined_cons (part : Bytes) (rest : List Bytes) :
    joined (part :: rest) = part.toList ++ joined rest :=
  rfl

namespace Sink

variable {σ α : Type} [Sink σ] {sink : σ} {allocator : Allocator}

/-- Offers parts one after the other, until all are accepted or the sink fails. -/
def offerAll : (parts : List Bytes) → σ → Option IoError × σ
  | [], sink => (none, sink)
  | part :: rest, sink =>
    match offer part sink with
    | (none, sink) => offerAll rest sink
    | (some error, sink) => (some error, sink)

/-- Offers parts one after the other and flushes the sink if all are accepted. -/
def conclude (parts : List Bytes) (sink : σ) : Option IoError × σ :=
  match offerAll parts sink with
  | (none, sink) => flush sink
  | (some error, sink) => (some error, sink)

omit [Sink σ] in
/-- What a call leaves that has the given answer unless the sink has failed. -/
def settle (answer : α) : Option IoError × σ → Outcome σ α
  | (none, sink) => ⟨.ok answer, sink, []⟩
  | (some error, sink) => ⟨.error (.error (.io error none)), sink, []⟩

/-! ## Calls made of offers -/

theorem writeAll_eq_settle (bytes : Bytes) (allocator : Allocator) (sink : σ) :
    writeAll bytes allocator sink = settle () (offer bytes sink) := by
  rw [writeAll]
  rcases offer bytes sink with ⟨_ | error, after⟩ <;> rfl

/-- Offering a part before calls that settle a row of offers settles the longer row. -/
theorem writeAll_bind_eq_settle {next : Unit → Action σ α} {rest : List Bytes} {answer : α}
    (hnext : ∀ sink, next () allocator sink = settle answer (offerAll rest sink)) (part : Bytes)
    (sink : σ) :
    (writeAll part >>= next) allocator sink = settle answer (offerAll (part :: rest) sink) := by
  have hfirst := writeAll_eq_settle part allocator sink
  rw [offerAll]
  rcases hoffer : offer part sink with ⟨_ | error, after⟩
  · rw [hoffer] at hfirst
    rw [Action.bind_of_ok hfirst, hnext]
  · rw [hoffer] at hfirst
    rw [Action.bind_apply_error hfirst]
    rfl

theorem writeAll_bind_eq_conclude {next : Unit → Action σ α} {rest : List Bytes} {answer : α}
    (hnext : ∀ sink, next () allocator sink = settle answer (conclude rest sink)) (part : Bytes)
    (sink : σ) :
    (writeAll part >>= next) allocator sink = settle answer (conclude (part :: rest) sink) := by
  have hfirst := writeAll_eq_settle part allocator sink
  rw [conclude, offerAll]
  rcases hoffer : offer part sink with ⟨_ | error, after⟩
  · rw [hoffer] at hfirst
    rw [Action.bind_of_ok hfirst, hnext]
    rfl
  · rw [hoffer] at hfirst
    rw [Action.bind_apply_error hfirst]
    rfl

theorem flushAll_eq_settle (answer : α) (sink : σ) :
    (do flushAll; return answer : Action σ α) allocator sink =
      settle answer (conclude [] sink) := by
  have hflush : (flushAll : Action σ Unit) allocator sink = settle () (flush sink) := by
    rw [flushAll]
    rcases flush sink with ⟨_ | error, after⟩ <;> rfl
  show _ = settle answer (flush sink)
  rcases hcase : flush sink with ⟨_ | error, after⟩
  · rw [hcase] at hflush
    rw [Action.bind_of_ok hflush]
    rfl
  · rw [hcase] at hflush
    rw [Action.bind_apply_error hflush]
    rfl

/-! ## Any sink -/

/-- After offers in a row the sink holds what it held before and a first part of what was
offered, which is all of it exactly if no error is reported. -/
theorem held_offerAll (parts : List Bytes) (sink : σ) :
    ∃ count, count ≤ (joined parts).length ∧
      (held (offerAll parts sink).2).toList =
        (held sink).toList ++ (joined parts).take count ∧
      ((offerAll parts sink).1 = none ↔ count = (joined parts).length) := by
  induction parts generalizing sink with
  | nil => exact ⟨0, Nat.le_refl 0, by simp [offerAll], by simp [offerAll]⟩
  | cons part rest ih =>
    obtain ⟨count, hcount, hheld, hall⟩ := held_offer part sink
    have hfirst : (held (offer part sink).2).toList =
        (held sink).toList ++ part.toList.take count := by
      rw [hheld]
      simp
    rw [offerAll, joined_cons, List.length_append, Array.length_toList]
    rcases hoffer : offer part sink with ⟨_ | error, after⟩
    · rw [hoffer] at hfirst hall
      obtain rfl : count = part.size := hall.mp rfl
      obtain ⟨more, hmore, hrest, hdone⟩ := ih after
      refine ⟨part.size + more, by omega, ?_, by simp only [hdone]; omega⟩
      simp only [hrest, hfirst]
      rw [← Array.length_toList, List.take_length, List.take_length_add_append, List.append_assoc]
    · rw [hoffer] at hfirst hall
      -- an offer that fails was not taken as a whole, and those after it are not made
      have hless : count ≠ part.size := fun heq => nomatch hall.mpr heq
      refine ⟨count, by omega, ?_, ?_⟩
      · simp only [hfirst]
        rw [List.take_append_of_le_length (by rw [Array.length_toList]; exact hcount)]
      · constructor
        · rintro ⟨⟩
        · omega

theorem held_conclude (parts : List Bytes) (sink : σ) :
    held (conclude parts sink).2 = held (offerAll parts sink).2 := by
  rw [conclude]
  rcases offerAll parts sink with ⟨_ | error, after⟩
  · exact held_flush after
  · rfl

/-! ## Sinks that never fail -/

variable {good : σ → Prop}

theorem Reliable.offerAll_eq (hgood : Reliable good) (hsink : good sink) (parts : List Bytes) :
    (offerAll parts sink).1 = none ∧ good (offerAll parts sink).2 := by
  induction parts generalizing sink with
  | nil => exact ⟨rfl, hsink⟩
  | cons part rest ih =>
    obtain ⟨hnone, hafter⟩ := hgood.offer_eq hsink part
    rw [offerAll]
    rcases hoffer : offer part sink with ⟨answer, after⟩
    rw [hoffer] at hnone hafter
    obtain rfl : answer = none := hnone
    exact ih hafter

theorem Reliable.held_offerAll (hgood : Reliable good) (hsink : good sink) (parts : List Bytes) :
    (held (offerAll parts sink).2).toList = (held sink).toList ++ joined parts := by
  obtain ⟨count, -, hheld, hall⟩ := Sink.held_offerAll parts sink
  obtain rfl := hall.mp (hgood.offerAll_eq hsink parts).1
  rw [hheld, List.take_length]

theorem Reliable.conclude_eq (hgood : Reliable good) (hsink : good sink) (parts : List Bytes) :
    (conclude parts sink).1 = none ∧ good (conclude parts sink).2 := by
  obtain ⟨hnone, hafter⟩ := hgood.offerAll_eq hsink parts
  rw [conclude]
  rcases hoffer : offerAll parts sink with ⟨answer, after⟩
  rw [hoffer] at hnone hafter
  obtain rfl : answer = none := hnone
  exact ⟨hgood.flush_eq after hafter, hgood.flush_good after hafter⟩

/-! ## Sinks that run full -/

/-- Sinks with the property have it forever. They take `room` more bytes, sooner or later and
perhaps few at a time, and refuse whatever is offered after that. -/
structure Rationed (room : σ → Nat) (fair : σ → Prop) : Prop where
  write_fair : ∀ (sink : σ) (bytes : Bytes), fair sink → fair (write sink bytes).2
  count_le_room : ∀ (sink : σ) (bytes : Bytes), fair sink → (write sink bytes).1.count ≤ room sink
  room_write : ∀ (sink : σ) (bytes : Bytes), fair sink →
    room (write sink bytes).2 = room sink - (write sink bytes).1.count
  write_takes : ∀ (sink : σ) (bytes : Bytes), fair sink → bytes.size ≠ 0 → room sink ≠ 0 →
    (write sink bytes).1 = .interrupted ∨ 0 < (write sink bytes).1.count
  flush_fair : ∀ sink : σ, fair sink → fair (flush sink).2
  room_flush : ∀ sink : σ, fair sink → room (flush sink).2 = room sink

namespace Rationed

variable {room : σ → Nat} {fair : σ → Prop}

/-- A sink that refuses an offer has no room left, and holds what it held. -/
theorem refused_eq (h : Rationed room fair) (hsink : fair sink) {bytes : Bytes}
    (hsize : bytes.size ≠ 0) {reply : Reply} {after : σ}
    (hwrite : write sink bytes = (reply, after))
    (hagain : reply ≠ .interrupted) (hnothing : reply.count = 0) :
    room sink = 0 ∧ fair after ∧ room after = 0 ∧ held after = held sink := by
  have htakes := h.write_takes sink bytes hsink hsize
  have hafter := h.write_fair sink bytes hsink
  have hleft := h.room_write sink bytes hsink
  have hheld := held_write sink bytes
  rw [hwrite] at htakes hafter hleft hheld
  have hfull : room sink = 0 := by
    apply Decidable.byContradiction
    intro hroom
    obtain hinterrupted | htaken := htakes hroom
    · exact hagain hinterrupted
    · exact absurd hnothing (Nat.ne_of_gt htaken)
  refine ⟨hfull, hafter, hleft.trans (by rw [hfull, Nat.zero_sub]), ?_⟩
  rw [hheld, hnothing, Array.extract_zero, Array.append_empty]

/-- Of an offer, as much is taken as there is room for. -/
theorem offer_eq (h : Rationed room fair) (hsink : fair sink) (bytes : Bytes) :
    fair (offer bytes sink).2 ∧ room (offer bytes sink).2 = room sink - bytes.size ∧
      ((offer bytes sink).1 = none ↔ bytes.size ≤ room sink) ∧
      (held (offer bytes sink).2).toList =
        (held sink).toList ++ bytes.toList.take (room sink) := by
  fun_induction offer bytes sink with
  | case1 bytes sink hsize =>
    have hnil : bytes.toList = [] := by simpa using hsize
    exact ⟨hsink, by rw [hsize, Nat.sub_zero], by simp [hsize], by simp [hnil]⟩
  | case2 bytes sink hsize after hwrite =>
    obtain ⟨hfull, hafter, hleft, hheld⟩ := h.refused_eq hsink hsize hwrite (by rintro ⟨⟩) rfl
    exact ⟨hafter, by rw [hfull, Nat.zero_sub]; exact hleft, by simp [hfull, hsize],
      by simp [hfull, hheld]⟩
  | case3 bytes sink hsize count after hwrite ih =>
    have hcount := h.count_le_room sink bytes hsink
    have hsome := count_le sink bytes
    have hafter := h.write_fair sink bytes hsink
    have hleft := h.room_write sink bytes hsink
    have hheld := held_write sink bytes
    rw [hwrite] at hcount hsome hafter hleft hheld
    simp only [Reply.count] at hcount hsome hleft hheld
    obtain ⟨hlast, hroom, hnone, hrest⟩ := ih hafter
    rw [Array.size_extract, Nat.min_self] at hroom hnone
    refine ⟨hlast, by omega, by rw [hnone]; omega, ?_⟩
    -- the bytes taken at once and those taken later are the first ones of the offer
    have hsplit : room sink = (count + 1) + room after := by omega
    have hfirst : (bytes.extract 0 (count + 1)).toList = bytes.toList.take (count + 1) := by simp
    have hlater : (bytes.extract (count + 1) bytes.size).toList =
        bytes.toList.drop (count + 1) := by simp [List.take_of_length_le]
    rw [hrest, hheld, hsplit, List.take_add, Array.toList_append, hfirst, hlater,
      List.append_assoc]
  | case4 bytes sink hsize after hwrite ih =>
    have hafter := h.write_fair sink bytes hsink
    have hleft := h.room_write sink bytes hsink
    have hheld := held_write sink bytes
    rw [hwrite] at hafter hleft hheld
    simp only [Reply.count, Nat.sub_zero] at hleft hheld
    have hsame := ih hafter
    rw [hleft, hheld] at hsame
    simpa using hsame
  | case5 bytes sink hsize error after hwrite =>
    obtain ⟨hfull, hafter, hleft, hheld⟩ := h.refused_eq hsink hsize hwrite (by rintro ⟨⟩) rfl
    exact ⟨hafter, by rw [hfull, Nat.zero_sub]; exact hleft, by simp [hfull, hsize],
      by simp [hfull, hheld]⟩

/-- Of offers in a row, as much is taken as there is room for. -/
theorem offerAll_eq (h : Rationed room fair) (hsink : fair sink) (parts : List Bytes) :
    fair (offerAll parts sink).2 ∧
      room (offerAll parts sink).2 = room sink - (joined parts).length ∧
      ((offerAll parts sink).1 = none ↔ (joined parts).length ≤ room sink) ∧
      (held (offerAll parts sink).2).toList =
        (held sink).toList ++ (joined parts).take (room sink) := by
  induction parts generalizing sink with
  | nil => exact ⟨hsink, rfl, by simp [offerAll], by simp [offerAll]⟩
  | cons part rest ih =>
    obtain ⟨hafter, hleft, hall, hheld⟩ := h.offer_eq hsink part
    rw [offerAll, joined_cons, List.length_append, Array.length_toList]
    rcases hoffer : offer part sink with ⟨_ | error, after⟩
    · rw [hoffer] at hafter hleft hall hheld
      simp only at hafter hleft hheld ⊢
      have hfits : part.size ≤ room sink := hall.mp rfl
      obtain ⟨hlast, hroom, hnone, hrest⟩ := ih hafter
      refine ⟨hlast, by omega, by rw [hnone]; omega, ?_⟩
      -- the room is that for this part and that for all after it
      have hsplit : room sink = part.toList.length + room after := by
        rw [Array.length_toList]
        omega
      have hwhole : part.toList.take (part.toList.length + room after) = part.toList :=
        List.take_of_length_le (Nat.le_add_right _ _)
      rw [hrest, hheld, hsplit, List.take_length_add_append, hwhole, List.append_assoc]
    · rw [hoffer] at hafter hleft hall hheld
      simp only at hafter hleft hheld ⊢
      have hover : room sink < part.size := by
        apply Nat.lt_of_not_le
        intro hfits
        cases hall.mpr hfits
      refine ⟨hafter, by omega, ?_, ?_⟩
      · constructor
        · rintro ⟨⟩
        · omega
      · rw [List.take_append_of_le_length (by rw [Array.length_toList]; omega)]
        exact hheld

/-- Offers with a flush at the end take no more, and where there is room for all of them only the
flush can fail. -/
theorem conclude_eq (h : Rationed room fair) (hsink : fair sink) (parts : List Bytes) :
    fair (conclude parts sink).2 ∧
      room (conclude parts sink).2 = room sink - (joined parts).length ∧
      (held (conclude parts sink).2).toList =
        (held sink).toList ++ (joined parts).take (room sink) ∧
      ((conclude parts sink).1 = none ↔ (joined parts).length ≤ room sink ∧
        ∀ after, offerAll parts sink = (none, after) → (flush after).1 = none) := by
  obtain ⟨hafter, hleft, hall, hheld⟩ := h.offerAll_eq hsink parts
  rw [← held_conclude] at hheld
  rw [conclude] at hheld ⊢
  rcases hoffer : offerAll parts sink with ⟨_ | error, after⟩
  · rw [hoffer] at hafter hleft hall hheld
    refine ⟨h.flush_fair after hafter, (h.room_flush after hafter).trans hleft, hheld, ?_⟩
    constructor
    · rintro hnone
      refine ⟨hall.mp rfl, ?_⟩
      rintro _ ⟨⟩
      exact hnone
    · rintro ⟨-, hflush⟩
      exact hflush after rfl
  · rw [hoffer] at hafter hleft hall hheld
    refine ⟨hafter, hleft, hheld, ?_⟩
    constructor
    · rintro ⟨⟩
    · rintro ⟨hfits, -⟩
      cases hall.mpr hfits

end Rationed

end Sink

namespace MemorySink

/-- The number of bytes that the sink still takes, if it has a capacity. -/
def left (sink : MemorySink) : Nat :=
  sink.room.getD 0

/-- The sink has a capacity and takes some bytes at a time until it is full. -/
def IsLimited (sink : MemorySink) : Prop :=
  sink.capacity ≠ none ∧ sink.chunk ≠ some 0

theorem room_eq_left {sink : MemorySink} (h : sink.IsLimited) : sink.room = some sink.left := by
  obtain ⟨capacity, hcapacity⟩ := Option.ne_none_iff_exists'.mp h.1
  rw [left, room, hcapacity]
  rfl

/-- A sink in memory with a capacity takes as many bytes as that leaves it, however few of them
at a time, and then refuses. -/
theorem rationed : Sink.Rationed left IsLimited where
  write_fair := by
    intro sink bytes hsink
    show (sink.write bytes).2.IsLimited
    unfold write
    split
    · exact hsink
    · split
      · exact hsink
      · exact hsink
  count_le_room := by
    intro sink bytes hsink
    show (sink.write bytes).1.count ≤ sink.left
    unfold write
    split
    · exact Nat.zero_le _
    · split
      · exact Nat.zero_le _
      · show sink.share bytes.size ≤ sink.left
        rw [share, room_eq_left hsink]
        exact Nat.le_trans (bounded_le _ _) (Nat.min_le_right _ _)
  room_write := by
    intro sink bytes hsink
    show (sink.write bytes).2.left = sink.left - (sink.write bytes).1.count
    unfold write
    split
    · rfl
    · split
      · rfl
      · obtain ⟨capacity, hcapacity⟩ := Option.ne_none_iff_exists'.mp hsink.1
        have hshare := sink.share_le bytes.size
        simp only [left, room, hcapacity, Option.map_some, Option.getD_some, Reply.count,
          Array.size_append, Array.size_extract]
        omega
  write_takes := by
    intro sink bytes hsink hsize hleft
    show (sink.write bytes).1 = .interrupted ∨ 0 < (sink.write bytes).1.count
    have hroom := room_eq_left hsink
    unfold write
    split
    · exact .inl rfl
    · rw [if_neg (by rw [hroom]; simp [hleft])]
      refine .inr ?_
      show 0 < sink.share bytes.size
      -- where there is room, the share of an offer is not empty
      have hfits : 0 < min bytes.size sink.left :=
        Nat.lt_min.mpr ⟨Nat.pos_of_ne_zero hsize, Nat.pos_of_ne_zero hleft⟩
      rw [share, hroom]
      cases hchunk : sink.chunk with
      | none => exact hfits
      | some chunk =>
        have hsome : chunk ≠ 0 := by
          rintro rfl
          exact hsink.2 hchunk
        exact Nat.lt_min.mpr ⟨hfits, Nat.pos_of_ne_zero hsome⟩
  flush_fair := by
    intro sink hsink
    show sink.flush.2.IsLimited
    unfold flush
    split
    · exact hsink
    · exact hsink
  room_flush := by
    intro sink _
    show sink.flush.2.left = sink.left
    unfold flush
    split <;> rfl

end MemorySink

end Columnar.Ipc
