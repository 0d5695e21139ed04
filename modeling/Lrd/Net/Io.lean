import Lrd.Rank.Item

/-!
# Whole-buffer transfers

`read_exact` and `write_all` (`net/io.cpp`) over what the kernel does with the calls
they make. The end that is read from is the list of what is still to arrive: chunks,
and calls that fail. At its end the peer has closed. The end that is written to is
what has been sent and a list of how coming calls are answered, which at its end take
all they are given.
-/

namespace Lrd.Net

/-- The errors of the calls that transfer bytes. -/
inductive Errno where
  | eintr
  | eagain
  | ewouldblock
  | epipe
  | other (code : Nat)
deriving DecidableEq, Repr

/-- How a transfer has ended. -/
inductive IoStatus where
  | ok
  | peerClosed
  | timedOut
  | error
deriving DecidableEq, Repr

/-- What a transfer returns. -/
structure IoResult where
  status : IoStatus
  error : Option Errno
  transferred : Nat
deriving DecidableEq, Repr

/-- The errno of a call that is not made again: a timeout elapsed, or the socket is
broken. -/
def IoResult.ofErrno (errno : Errno) (transferred : Nat) : IoResult :=
  if errno = .eagain ∨ errno = .ewouldblock then ⟨.timedOut, some errno, transferred⟩
  else ⟨.error, some errno, transferred⟩

/-! ## Reading -/

/-- What a call of `read` may find: bytes, at least one, or a failure. -/
inductive Arrival where
  | chunk (first : UInt8) (more : Bytes)
  | failed (errno : Errno)
deriving DecidableEq, Repr

/-- What is still to arrive before the peer closes. -/
abbrev Incoming : Type := List Arrival

/-- The rest of a chunk that a call has not taken. -/
def Incoming.putBack : Bytes → Incoming → Incoming
  | [], later => later
  | first :: more, later => .chunk first more :: later

/-- The loop of `read_exact`, with what it has put into the buffer. A chunk that is
longer than what is missing fills the buffer, and its rest stays for the next call. -/
def readLoop (size : Nat) (got : Bytes) (incoming : Incoming) : IoResult × Bytes × Incoming :=
  if got.length < size then
    match incoming with
    | [] => (⟨.peerClosed, none, got.length⟩, got, [])
    | .chunk first more :: later =>
        if got.length + (first :: more).length ≤ size then
          readLoop size (got ++ first :: more) later
        else
          (⟨.ok, none, size⟩, got ++ (first :: more).take (size - got.length),
            .putBack ((first :: more).drop (size - got.length)) later)
    | .failed errno :: later =>
        if errno = .eintr then readLoop size got later
        else (.ofErrno errno got.length, got, later)
  else (⟨.ok, none, got.length⟩, got, incoming)

/-- The outcome of `read_exact`, what it has put into the buffer and what is still to
arrive. -/
def readExact (size : Nat) (incoming : Incoming) : IoResult × Bytes × Incoming :=
  readLoop size [] incoming

/-! ## Writing -/

/-- How a call of `send` is answered: it takes some bytes or fails. -/
inductive Answer where
  | takes (count : Nat)
  | failed (errno : Errno)
deriving DecidableEq, Repr

/-- What has been sent and how coming calls are answered. -/
structure Outgoing where
  sent : Bytes
  answers : List Answer
deriving DecidableEq, Repr

/-- The loop of `write_all`, with how many bytes of the buffer have gone. -/
def writeLoop (data : Bytes) (transferred : Nat) (sent : Bytes) (answers : List Answer) :
    IoResult × Outgoing :=
  if transferred < data.length then
    match answers with
    | [] => (⟨.ok, none, data.length⟩, ⟨sent ++ data.drop transferred, []⟩)
    | .takes count :: later =>
        if 0 < count then
          writeLoop data (transferred + min count (data.length - transferred))
            (sent ++ (data.drop transferred).take count) later
        else (⟨.error, none, transferred⟩, ⟨sent, later⟩)
    | .failed errno :: later =>
        if errno = .eintr then writeLoop data transferred sent later
        else if errno = .epipe then (⟨.peerClosed, none, transferred⟩, ⟨sent, later⟩)
        else (.ofErrno errno transferred, ⟨sent, later⟩)
  else (⟨.ok, none, transferred⟩, ⟨sent, answers⟩)

/-- `write_all`. -/
def writeAll (data : Bytes) (outgoing : Outgoing) : IoResult × Outgoing :=
  writeLoop data 0 outgoing.sent outgoing.answers

/-! ## What arrives -/

namespace Incoming

/-- The bytes that are still to arrive. -/
def bytes : Incoming → Bytes
  | [] => []
  | .chunk first more :: later => first :: more ++ bytes later
  | .failed _ :: later => bytes later

/-- No call fails except by being interrupted. -/
def Steady (incoming : Incoming) : Prop := ∀ errno, .failed errno ∈ incoming → errno = .eintr

theorem bytes_putBack (bytes : Bytes) (later : Incoming) :
    (putBack bytes later).bytes = bytes ++ later.bytes := by
  cases bytes <;> rfl

theorem Steady.tail {arrival : Arrival} {later : Incoming}
    (steady : Steady (arrival :: later)) : Steady later :=
  fun errno member => steady errno (List.mem_cons_of_mem _ member)

/-- What is put back keeps a stream steady. -/
theorem Steady.putBack {later : Incoming} (steady : Steady later) (bytes : Bytes) :
    Steady (putBack bytes later) := by
  intro errno member
  cases bytes with
  | nil => exact steady errno member
  | cons first more =>
      rcases List.mem_cons.mp member with impossible | member
      · cases impossible
      · exact steady errno member

end Incoming

variable {incoming : Incoming}

/-- Where no call fails for good, the loop fills its buffer if enough is to arrive. -/
theorem readLoop_enough (got wanted : Bytes) {rest : Bytes} (steady : incoming.Steady)
    (split : incoming.bytes = wanted ++ rest) :
    ∃ later : Incoming, readLoop (got.length + wanted.length) got incoming =
        (⟨.ok, none, got.length + wanted.length⟩, got ++ wanted, later) ∧
      later.bytes = rest ∧ later.Steady := by
  induction incoming generalizing got wanted with
  | nil =>
      obtain ⟨rfl, rfl⟩ := List.append_eq_nil_iff.mp split.symm
      refine ⟨[], ?_, rfl, steady⟩
      simp [readLoop]
  | cons arrival later ih =>
      unfold readLoop
      by_cases missing : got.length < got.length + wanted.length
      · rw [if_pos missing]
        cases arrival with
        | chunk first more =>
            change first :: more ++ Incoming.bytes later = wanted ++ rest at split
            by_cases fits : got.length + (first :: more).length ≤ got.length + wanted.length
            · obtain ⟨others, rfl⟩ : first :: more <+: wanted :=
                List.prefix_of_prefix_length_le ⟨_, split⟩ (List.prefix_append _ _) (by omega)
              rw [List.append_assoc] at split
              have size : got.length + (first :: more ++ others).length =
                  (got ++ first :: more).length + others.length := by
                simp only [List.length_append]
                omega
              obtain ⟨after, read, arrived, calm⟩ := ih (got ++ first :: more) others steady.tail
                (List.append_cancel_left split)
              refine ⟨after, ?_, arrived, calm⟩
              simp only [if_pos fits]
              rw [size, read, List.append_assoc]
            · obtain ⟨others, whole⟩ : wanted <+: first :: more :=
                List.prefix_of_prefix_length_le (List.prefix_append _ _) ⟨_, split⟩ (by omega)
              rw [← whole, List.append_assoc] at split
              refine ⟨.putBack others later, ?_, ?_, steady.tail.putBack others⟩
              · simp only [if_neg fits, Nat.add_sub_cancel_left]
                rw [← whole, List.take_left, List.drop_left]
              · rw [Incoming.bytes_putBack]
                exact List.append_cancel_left split
        | failed errno =>
            obtain rfl := steady errno List.mem_cons_self
            exact ih got wanted steady.tail split
      · obtain rfl : wanted = [] := List.eq_nil_of_length_eq_zero (by omega)
        rw [if_neg missing]
        exact ⟨arrival :: later, by simp, split, steady⟩

/-- If too little is to arrive, the loop takes it all and sees the peer close. -/
theorem readLoop_short {size : Nat} (got : Bytes) (steady : incoming.Steady)
    (short : got.length + incoming.bytes.length < size) :
    readLoop size got incoming =
      (⟨.peerClosed, none, got.length + incoming.bytes.length⟩, got ++ incoming.bytes, []) := by
  have missing : got.length < size := by omega
  induction incoming generalizing got with
  | nil =>
      unfold readLoop
      rw [if_pos missing]
      simp [Incoming.bytes]
  | cons arrival later ih =>
      unfold readLoop
      rw [if_pos missing]
      cases arrival with
      | chunk first more =>
          have length : (Incoming.bytes (.chunk first more :: later)).length =
              (first :: more).length + (Incoming.bytes later).length := List.length_append
          rw [length] at short ⊢
          have fits : got.length + (first :: more).length ≤ size := by omega
          have total : (got ++ first :: more).length = got.length + (first :: more).length :=
            List.length_append
          simp only [if_pos fits]
          rw [ih (got ++ first :: more) steady.tail (by omega) (by omega), total,
            List.append_assoc, Nat.add_assoc]
          rfl
      | failed errno =>
          obtain rfl := steady errno List.mem_cons_self
          exact ih got steady.tail short missing

/-- The loop never puts more into the buffer than its size. -/
theorem length_readLoop_le {size : Nat} (got : Bytes) (incoming : Incoming)
    (room : got.length ≤ size) : (readLoop size got incoming).2.1.length ≤ size := by
  induction incoming generalizing got with
  | nil =>
      unfold readLoop
      split <;> exact room
  | cons arrival later ih =>
      unfold readLoop
      split
      · cases arrival with
        | chunk first more =>
            by_cases fits : got.length + (first :: more).length ≤ size
            · simp only [if_pos fits]
              exact ih _ (by rw [List.length_append]; exact fits)
            · simp only [if_neg fits, List.length_append, List.length_take]
              omega
        | failed errno =>
            by_cases again : errno = .eintr
            · simp only [if_pos again]
              exact ih got room
            · simp only [if_neg again]
              exact room
      · exact room

/-- What has arrived is read in full. -/
theorem readExact_enough (wanted : Bytes) {rest : Bytes} (steady : incoming.Steady)
    (split : incoming.bytes = wanted ++ rest) :
    ∃ later : Incoming, readExact wanted.length incoming =
        (⟨.ok, none, wanted.length⟩, wanted, later) ∧ later.bytes = rest ∧ later.Steady := by
  have read := readLoop_enough [] wanted steady split
  simp only [List.length_nil, Nat.zero_add, List.nil_append] at read
  exact read

/-- A stream that ends too early is noticed. -/
theorem readExact_short {size : Nat} (steady : incoming.Steady)
    (short : incoming.bytes.length < size) :
    readExact size incoming = (⟨.peerClosed, none, incoming.bytes.length⟩, incoming.bytes, []) := by
  have read := readLoop_short [] steady (by rw [List.length_nil, Nat.zero_add]; exact short)
  simp only [List.length_nil, Nat.zero_add, List.nil_append] at read
  exact read

theorem length_readExact_le (size : Nat) (incoming : Incoming) :
    (readExact size incoming).2.1.length ≤ size :=
  length_readLoop_le [] incoming (Nat.zero_le size)

/-! ## What is sent -/

/-- Every call takes something or is interrupted. -/
def Willing (answers : List Answer) : Prop :=
  ∀ answer ∈ answers, answer = .failed .eintr ∨ ∃ count, answer = .takes (count + 1)

/-- What a call takes and what it leaves. -/
theorem take_append_drop_min (data : Bytes) (transferred count : Nat) :
    (data.drop transferred).take count ++
      data.drop (transferred + min count (data.length - transferred)) = data.drop transferred := by
  rw [← List.drop_drop]
  rcases Nat.le_total count (data.length - transferred) with few | many
  · rw [Nat.min_eq_left few, List.take_append_drop]
  · rw [← List.length_drop] at many ⊢
    rw [Nat.min_eq_right many, List.drop_length, List.take_of_length_le many, List.append_nil]

/-- On a socket that takes everything the loop sends everything. -/
theorem writeLoop_willing {data : Bytes} (transferred : Nat) (sent : Bytes)
    {answers : List Answer} (willing : Willing answers) (within : transferred ≤ data.length) :
    ∃ later, Willing later ∧ writeLoop data transferred sent answers =
      (⟨.ok, none, data.length⟩, ⟨sent ++ data.drop transferred, later⟩) := by
  induction answers generalizing transferred sent with
  | nil =>
      refine ⟨[], willing, ?_⟩
      unfold writeLoop
      split
      · rfl
      · obtain rfl : transferred = data.length := by omega
        rw [List.drop_length, List.append_nil]
  | cons answer answers ih =>
      have others : Willing answers := fun other member =>
        willing other (List.mem_cons_of_mem _ member)
      unfold writeLoop
      by_cases missing : transferred < data.length
      · rw [if_pos missing]
        rcases willing answer List.mem_cons_self with rfl | ⟨count, rfl⟩
        · exact ih transferred sent others within
        · obtain ⟨later, calm, wrote⟩ :=
            ih (transferred + min (count + 1) (data.length - transferred))
              (sent ++ (data.drop transferred).take (count + 1)) others (by omega)
          refine ⟨later, calm, ?_⟩
          simp only [Nat.zero_lt_succ, ↓reduceIte]
          rw [wrote, List.append_assoc, take_append_drop_min]
      · obtain rfl : transferred = data.length := by omega
        rw [if_neg missing, List.drop_length, List.append_nil]
        exact ⟨answer :: answers, willing, rfl⟩

/-- On a socket that takes everything everything is sent. -/
theorem writeAll_willing (data : Bytes) {outgoing : Outgoing}
    (willing : Willing outgoing.answers) :
    ∃ later, Willing later ∧
      writeAll data outgoing = (⟨.ok, none, data.length⟩, ⟨outgoing.sent ++ data, later⟩) :=
  writeLoop_willing 0 outgoing.sent willing (Nat.zero_le _)

end Lrd.Net
