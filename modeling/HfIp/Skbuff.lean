import Mathlib.Algebra.GroupWithZero.Nat
import Mathlib.Data.List.Basic

/- Socket buffers and their queues (src/skbuff.c, include/skbuff.h) and the TCP header they
   hold (include/tcp.h). A queue is the list of the buffers linked in it, head first. -/
namespace HfIp

/- For the numerals of `hl`. -/
instance neZero_sixteen : NeZero 16 := ⟨by decide⟩

/- The header of a segment. `data` is the option area `th->data`; `hl` is the data offset in
   32-bit words. -/
structure TcpHdr where
  sport : UInt16 := 0
  dport : UInt16 := 0
  seq : UInt32 := 0
  ackSeq : UInt32 := 0
  hl : Fin 16 := 0
  fin : Bool := false
  syn : Bool := false
  rst : Bool := false
  psh : Bool := false
  ack : Bool := false
  urg : Bool := false
  win : UInt16 := 0
  data : List UInt8 := []
  deriving DecidableEq, Repr

/- `payload` stands for the `dlen` bytes at `skb->payload`; `id` names the allocation. -/
structure SkBuff where
  id : Nat
  refcnt : Int := 0
  th : TcpHdr := {}
  seq : UInt32 := 0
  endSeq : UInt32 := 0
  payload : List UInt8 := []
  deriving DecidableEq, Repr

def SkBuff.dlen (skb : SkBuff) : UInt32 := UInt32.ofNat skb.payload.length

/- What `tcp_transmit_skb` hands to `ip_output`. -/
structure Segment where
  th : TcpHdr
  payload : List UInt8
  deriving DecidableEq, Repr

def skbQueueTail (queue : List SkBuff) (new : SkBuff) : List SkBuff := queue ++ [new]

def skbPeek (queue : List SkBuff) : Option SkBuff := queue.head?

def skbDequeue (queue : List SkBuff) : List SkBuff := queue.tail

def skbQueueEmpty (queue : List SkBuff) : Bool := queue.length < 1

end HfIp
