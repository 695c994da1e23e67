import Mathlib.Logic.Function.Basic
import SyNetsim.Lib.Bytes

/-!
# Message queues

`mq.c`, and the keys of `params.h`. The processes find their queues by a key, which is made of a
number for the direction and the number of the node. The queues of the kernel hold the messages
with their data, which is never longer than the array `text` of a `MqMsgbuf`.
-/

/-- `MQ_MAX_DATA_LEN`. -/
def mqMaxDataLen : ℕ := 5000

/-- A `MqMsgbuf` with as many bytes of `text` as were sent. -/
structure Mq.Msgbuf where
  type : ℤ
  text : List Byte
  length_le : text.length ≤ mqMaxDataLen

/-- `MESSAGE_TYPE_DATA`. -/
def messageTypeData : ℤ := 1

/-- `MESSAGE_TYPE_HEARTBEAT`. -/
def messageTypeHeartbeat : ℤ := 3

/-! ### Keys -/

/-- The directions in which there is a queue for every node. -/
inductive MqDir where
  | macToNet
  | netToMac
  | macToPhy
  | phyToMac
deriving DecidableEq

/-- `MQ_KEY_MAC_TO_NET`, `MQ_KEY_NET_TO_MAC`, `MQ_KEY_MAC_TO_PHY` and `MQ_KEY_PHY_TO_MAC`. -/
def MqDir.key : MqDir → ℕ
  | macToNet => 0x0100
  | netToMac => 0x0200
  | macToPhy => 0x0300
  | phyToMac => 0x0400

/-- The key of the queue of the node `nid`. -/
def mqKey (dir : MqDir) (nid : ℕ) : ℕ := dir.key + nid

/-- No two queues have the same key. -/
theorem mqKey_inj {dir dir' : MqDir} {nid nid' : ℕ} (h : nid < 0x0100) (h' : nid' < 0x0100) :
  mqKey dir nid = mqKey dir' nid' ↔ dir = dir' ∧ nid = nid'
  := by
  cases dir <;> cases dir' <;> simp [mqKey, MqDir.key] <;> omega

/-! ### Sending and receiving -/

/-- The message queues of the kernel, by their keys. -/
abbrev Mqs : Type := ℕ → List Mq.Msgbuf

/-- A queue of at most `qbytes` bytes has room for a message of `len` bytes. There are not more
than `qbytes` messages either. -/
def HasRoom (qbytes : ℕ) (queue : List Mq.Msgbuf) (len : ℕ) : Prop :=
  (queue.map (fun msg => msg.text.length)).sum + len ≤ qbytes ∧ queue.length + 1 ≤ qbytes

instance (qbytes : ℕ) (queue : List Mq.Msgbuf) (len : ℕ) : Decidable (HasRoom qbytes queue len) :=
  inferInstanceAs (Decidable (_ ∧ _))

namespace Mqs

/-- `send_mq`: what it returns, and the queues after it. Data that is too long is reported, and
then copied over the end of `text` all the same, for which it gives `none`. -/
def sendMq (qbytes : ℕ) (mqs : Mqs) (key : ℕ) (data : List Byte) (type : ℤ) : Option (ℤ × Mqs) :=
  if type < 1 then some (-1, mqs)
  else if h : data.length ≤ mqMaxDataLen then
    if HasRoom qbytes (mqs key) data.length then
      some (1, Function.update mqs key (mqs key ++ [⟨type, data, h⟩]))
    else some (0, mqs)
  else none

/-- `recv_mq`: the first message and the queues without it, or `none` if it returns a negative
number. -/
def recvMq (mqs : Mqs) (key : ℕ) : Option (Mq.Msgbuf × Mqs) :=
  match mqs key with
  | [] => none
  | msg :: msgs => some (msg, Function.update mqs key msgs)

/-- The next call of `msgrcv` for a process that has the queues `key :: keys` still to go through
with `mq_flush`: the queues after it, and those that are still to go through. -/
def mqFlush (mqs : Mqs) (key : ℕ) (keys : List ℕ) : Mqs × List ℕ :=
  match mqs.recvMq key with
  | none => (mqs, keys)
  | some (_, mqs) => (mqs, key :: keys)

/-- Data that came in a message is never too long to be sent. -/
theorem sendMq_isSome (qbytes : ℕ) (mqs : Mqs) (key : ℕ) (msg : Mq.Msgbuf) (type : ℤ) :
  (mqs.sendMq qbytes key msg.text type).isSome
  := by
  rw [sendMq, dif_pos msg.length_le]
  split_ifs <;> rfl

/-- Sending appends one message to one queue, or does nothing if there is no room. -/
theorem sendMq_eq_some {qbytes : ℕ} {mqs mqs' : Mqs} {key : ℕ} {data : List Byte} {type res : ℤ}
    (htype : 0 < type) (h : mqs.sendMq qbytes key data type = some (res, mqs')) :
  ∃ msg : Mq.Msgbuf, msg.type = type ∧ msg.text = data ∧
    (mqs' = Function.update mqs key (mqs key ++ [msg]) ∨
      mqs' = mqs ∧ ¬ HasRoom qbytes (mqs key) data.length)
  := by
  rw [sendMq, if_neg (not_lt.mpr htype)] at h
  split_ifs at h with hlen hroom
  · obtain ⟨_, rfl⟩ := Prod.mk.inj (Option.some.inj h)
    exact ⟨⟨type, data, hlen⟩, rfl, rfl, Or.inl rfl⟩
  · obtain ⟨_, rfl⟩ := Prod.mk.inj (Option.some.inj h)
    exact ⟨⟨type, data, hlen⟩, rfl, rfl, Or.inr ⟨rfl, hroom⟩⟩

theorem recvMq_eq_none {mqs : Mqs} {key : ℕ} (h : mqs.recvMq key = none) :
  mqs key = []
  := by
  rw [recvMq] at h
  split at h
  · assumption
  · cases h

theorem recvMq_eq_some {mqs mqs' : Mqs} {key : ℕ} {msg : Mq.Msgbuf}
    (h : mqs.recvMq key = some (msg, mqs')) :
  ∃ msgs, mqs key = msg :: msgs ∧ mqs' = Function.update mqs key msgs
  := by
  rw [recvMq] at h
  split at h
  · cases h
  · obtain ⟨rfl, rfl⟩ := Prod.mk.inj (Option.some.inj h)
    exact ⟨_, by assumption, rfl⟩

end Mqs
