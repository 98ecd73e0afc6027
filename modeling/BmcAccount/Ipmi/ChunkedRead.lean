import BmcAccount.Ipmi.LdapConfig

/-!
# Reading the LDAP configuration over IPMI

A value of the LDAP configuration that is too long for a message is read in chunks. A request
says where the chunk begins and how long it may be, and the answer has a flag that is zero when
the chunk reaches the end of the value.

A client that goes on where the last chunk ended, until the flag is zero, has read the value
(`reads_reassemble`), whatever lengths it asks for.
-/

namespace BmcAccount

namespace LdapConfig

namespace ChunkedRead

/-! ## The command -/

/-- The errors; `refused` is one of the function that gets the value. -/
inductive Err where
  | cannotProvide
  | invalidCommand
  | refused
deriving DecidableEq

/-- A `GetLdapConfiguration` request. -/
structure Req where
  manufactureId : ℕ
  controllerId : ℕ
  groupId : ℕ
  parameterSelector : ℕ
  offset : ℕ
  length : ℕ

/-- The answer to a `GetLdapConfiguration` request. -/
structure Rsp where
  completionCode : ℕ
  manufactureId : ℕ
  endOfList : ℕ
  reserved : ℕ
  data : Bytes
deriving DecidableEq

/-- The functions that get the values of the parameters, for a controller and a group. -/
abbrev Getters : Type := Param → ℕ → ℕ → Except Err Bytes

/-- `MAX_IPMI_DATA_LEN`. -/
def maxIpmiDataLen : ℕ := 256

/-- `LDAP_EXTRA_IPMI_DATA_LEN`. -/
def ldapExtraIpmiDataLen : ℕ := 5

/-- `string.sub(s, i, j)`, with positions from `1` on. -/
def sub (s : Bytes) (i j : ℕ) : Bytes := (s.take j).drop (i - 1)

/-- The chunk and the flag, before the length is checked. -/
def chunk (configData : Bytes) (offset length : ℕ) : Bytes × ℕ :=
  if offset + 1 + length ≤ configData.length then
    (sub configData (offset + 1) (offset + length), 1)
  else (sub configData (offset + 1) configData.length, 0)

/-- `get_config_data`, for the value of the parameter. -/
def getConfigData (configData : Bytes) (offset length : ℕ) : Except Err (Bytes × ℕ) :=
  if configData.length = 0 then .ok ([0], 0)
  else if configData.length ≤ offset then .error .cannotProvide
  else if maxIpmiDataLen - ldapExtraIpmiDataLen ≤ (chunk configData offset length).1.length then
    .error .cannotProvide
  else .ok (chunk configData offset length)

/-- `ipmi_get_ldap_configuration`. -/
def ipmiGetLdapConfiguration (get : Getters) (req : Req) : Except Err Rsp := do
  if req.length = 0 then throw .cannotProvide
  let p ← (Param.ofSelector req.parameterSelector).elim (.error .invalidCommand) .ok
  let configData ← get p req.controllerId (req.groupId + 1)
  let (data, completeFlag) ← getConfigData configData req.offset req.length
  pure
    { completionCode := 0
      manufactureId := req.manufactureId
      endOfList := completeFlag
      reserved := 0
      data := data }

/-! ## A client -/

/-- What a client reads. -/
structure Target where
  manufactureId : ℕ
  controllerId : ℕ
  groupId : ℕ
  parameterSelector : ℕ

/-- The request for a chunk. -/
def Target.request (t : Target) (offset length : ℕ) : Req :=
  ⟨t.manufactureId, t.controllerId, t.groupId, t.parameterSelector, offset, length⟩

/-- A client that has some bytes and goes on at the offset, one that has seen the flag, and one
that has seen an error. -/
inductive Client where
  | reading (offset : ℕ) (received : Bytes)
  | complete (received : Bytes)
  | failed (e : Err)
deriving DecidableEq

/-- What the client makes of an answer. -/
def Client.take (offset : ℕ) (received : Bytes) : Except Err Rsp → Client
  | .error e => .failed e
  | .ok rsp =>
    if rsp.endOfList = 0 then .complete (received ++ rsp.data)
    else .reading (offset + rsp.data.length) (received ++ rsp.data)

/-- The client asks for a chunk of the given length, unless it is done. -/
def Client.step (get : Getters) (t : Target) (c : Client) (length : ℕ) : Client :=
  match c with
  | .reading offset received =>
    .take offset received (ipmiGetLdapConfiguration get (t.request offset length))
  | c => c

/-- The client after `n` chunks, asking for the given lengths from offset zero on. -/
def Client.after (get : Getters) (t : Target) (lengths : ℕ → ℕ) : ℕ → Client
  | 0 => .reading 0 []
  | n + 1 => (Client.after get t lengths n).step get t (lengths n)

/-- The client reads the value: it never fails, asks only for offsets that fit into a byte,
ends, and then has the value. -/
structure Reads (client : ℕ → Client) (value : Bytes) : Prop where
  succeeds : ∀ n e, client n ≠ .failed e
  offset : ∀ n o received, client n = .reading o received → o < 256
  ends : ∃ n received, client n = .complete received
  whole : ∀ n received, client n = .complete received → received = value

/-! ## One chunk -/

section

variable {value : Bytes} {offset length : ℕ}

/-- A chunk that does not reach the end has the length asked for. -/
theorem chunk_of_lt (h : offset + length < value.length) :
  chunk value offset length = ((value.drop offset).take length, 1)
  := by
  rw [chunk, if_pos (by omega), sub, Nat.add_sub_cancel, List.take_drop]

theorem chunk_of_le (h : value.length ≤ offset + length) :
  chunk value offset length = (value.drop offset, 0)
  := by
  rw [chunk, if_neg (by omega), sub, Nat.add_sub_cancel, List.take_length]

/-- No chunk is longer than what was asked for. -/
theorem length_chunk_le (value : Bytes) (offset length : ℕ) :
  (chunk value offset length).1.length ≤ length
  := by
  by_cases h : offset + length < value.length
  · rw [chunk_of_lt h, List.length_take]
    apply Nat.min_le_left
  · rw [chunk_of_le (Nat.le_of_not_lt h), List.length_drop]
    omega

/-- A chunk inside the value is answered, if it is short enough. -/
theorem getConfigData_eq (hoffset : offset < value.length) (hlength : length ≤ 250) :
  getConfigData value offset length = .ok (chunk value offset length)
  := by
  have hle := length_chunk_le value offset length
  rw [getConfigData, if_neg (by omega), if_neg (by omega), if_neg]
  rw [maxIpmiDataLen, ldapExtraIpmiDataLen]
  omega

variable {get : Getters} {t : Target} {p : Param}

/-- The answer to a request for a chunk. -/
theorem ipmiGetLdapConfiguration_eq {req : Req} {answer : Bytes × ℕ} (hlength : req.length ≠ 0)
    (hp : Param.ofSelector req.parameterSelector = some p)
    (hget : get p req.controllerId (req.groupId + 1) = .ok value)
    (hdata : getConfigData value req.offset req.length = .ok answer) :
  ipmiGetLdapConfiguration get req = .ok ⟨0, req.manufactureId, answer.2, 0, answer.1⟩
  := by
  rw [ipmiGetLdapConfiguration, if_neg hlength, hp]
  change (get p req.controllerId (req.groupId + 1)).bind _ = _
  rw [hget]
  change (getConfigData value req.offset req.length).bind _ = _
  rw [hdata]
  rfl

/-- The client takes the chunk, and is done when the chunk reaches the end. -/
theorem step_reading (hp : Param.ofSelector t.parameterSelector = some p)
    (hget : get p t.controllerId (t.groupId + 1) = .ok value)
    (hoffset : offset < value.length) (hpos : 1 ≤ length) (hlength : length ≤ 250)
    (received : Bytes) :
  (Client.reading offset received).step get t length =
    if offset + length < value.length then
      .reading (offset + length) (received ++ (value.drop offset).take length)
    else .complete (received ++ value.drop offset)
  := by
  have hanswer : ipmiGetLdapConfiguration get (t.request offset length) = .ok
      ⟨0, t.manufactureId, (chunk value offset length).2, 0, (chunk value offset length).1⟩ :=
    ipmiGetLdapConfiguration_eq (Nat.ne_of_gt hpos) hp hget (getConfigData_eq hoffset hlength)
  rw [Client.step, hanswer, Client.take]
  by_cases h : offset + length < value.length
  · have hdata : ((value.drop offset).take length).length = length := by
      rw [List.length_take, List.length_drop]
      omega
    rw [chunk_of_lt h, if_pos h]
    dsimp only
    rw [if_neg Nat.one_ne_zero, hdata]
  · rw [chunk_of_le (Nat.le_of_not_lt h), if_neg h]
    exact if_pos rfl

end

/-! ## The whole value -/

/-- How many bytes the client has asked for. -/
def asked (lengths : ℕ → ℕ) (n : ℕ) : ℕ := ∑ k ∈ Finset.range n, lengths k

theorem asked_succ (lengths : ℕ → ℕ) (n : ℕ) :
  asked lengths (n + 1) = asked lengths n + lengths n
  := Finset.sum_range_succ lengths n

theorem le_asked {lengths : ℕ → ℕ} (h : ∀ k, 1 ≤ lengths k) (n : ℕ) :
  n ≤ asked lengths n
  := by
  induction n with
  | zero => apply Nat.zero_le
  | succ n ih =>
    have hn := h n
    rw [asked_succ]
    omega

section

variable {get : Getters} {t : Target} {p : Param} {value : Bytes} {lengths : ℕ → ℕ}

/-- After `n` chunks the client has as many bytes of the value as it has asked for, or all of
them. -/
theorem client_eq (hp : Param.ofSelector t.parameterSelector = some p)
    (hget : get p t.controllerId (t.groupId + 1) = .ok value) (hvalue : value ≠ [])
    (hlengths : ∀ k, 1 ≤ lengths k ∧ lengths k ≤ 250) (n : ℕ) :
  Client.after get t lengths n =
    if asked lengths n < value.length then
      .reading (asked lengths n) (value.take (asked lengths n))
    else .complete value
  := by
  induction n with
  | zero =>
    rw [asked, Finset.sum_range_zero, if_pos (List.length_pos_of_ne_nil hvalue)]
    rfl
  | succ n ih =>
    obtain ⟨hpos, hle⟩ := hlengths n
    rw [Client.after, ih, asked_succ]
    by_cases h : asked lengths n < value.length
    · rw [if_pos h, step_reading hp hget h hpos hle, ← List.take_add, List.take_append_drop]
    · rw [if_neg h, if_neg (by omega)]
      rfl

/-- A client that asks for chunks of at most 249 bytes reads every value that has at least one
byte and at most 255. -/
theorem reads_reassemble (hp : Param.ofSelector t.parameterSelector = some p)
    (hget : get p t.controllerId (t.groupId + 1) = .ok value) (hvalue : value ≠ [])
    (hlength : value.length ≤ 255) (hlengths : ∀ k, 1 ≤ lengths k ∧ lengths k ≤ 249) :
  Reads (Client.after get t lengths) value
  := by
  have hclient := client_eq hp hget hvalue fun k =>
    ⟨(hlengths k).1, (hlengths k).2.trans (Nat.le_succ 249)⟩
  exact {
    succeeds := by
      intro n e
      rw [hclient]
      split
      · apply Client.noConfusion
      · apply Client.noConfusion
    offset := by
      intro n o received h
      rw [hclient] at h
      split at h
      case isTrue hlt =>
        obtain ⟨rfl, -⟩ := Client.reading.inj h
        omega
      case isFalse => exact Client.noConfusion h
    ends := by
      refine ⟨value.length, value, ?_⟩
      rw [hclient, if_neg]
      exact Nat.not_lt_of_le (le_asked (fun k => (hlengths k).1) value.length)
    whole := by
      intro n received h
      rw [hclient] at h
      split at h
      case isTrue => exact Client.noConfusion h
      case isFalse => exact (Client.complete.inj h).symm }

end

/-- The folder of a controller, read two bytes at a time. -/
theorem reads_reassemble_folder :
  Reads (Client.after (fun _ _ _ => .ok [111, 117, 61, 105, 116]) ⟨2011, 1, 0, 4⟩ fun _ => 2)
    [111, 117, 61, 105, 116]
  := reads_reassemble (p := .folder) rfl rfl (by decide) (by decide) fun _ => by decide

end ChunkedRead

end LdapConfig

end BmcAccount
