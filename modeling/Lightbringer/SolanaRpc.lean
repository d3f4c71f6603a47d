import Lightbringer.Types

/-!
# The RPC client

The two calls of `solana_rpc.rs` that the confirmation stream makes. `send` is whatever the node answers to a method;
its result is read as the type that the caller expects, and fails to be read as any other.
-/

namespace Lightbringer

/-- The methods of `RpcRequest` that give blocks. -/
inductive RpcRequest where
  | getBlock
  | getBlocks
  deriving DecidableEq

inductive SolanaRpcError where
  | http
  | jsonRpc
  | isahc
  | serDe
  | bs58
  deriving DecidableEq

/-- The `result` of a response: a list of slots, or a block with its hash as it decodes. -/
inductive RpcResult where
  | slots (slots : List UInt64)
  | block (blockhash : Option Hash)
  deriving DecidableEq

abbrev RpcSend := RpcRequest → UInt64 → Except SolanaRpcError RpcResult

namespace SolanaRpcClient

variable (send : RpcSend)

/-- Expects an `EncodedConfirmedBlock`. -/
def getBlockhash (slot : UInt64) : Except SolanaRpcError Hash := do
  match ← send .getBlock slot with
  | .block (some blockhash) => .ok blockhash
  | .block none => .error .bs58
  | .slots _ => .error .serDe

/-- Expects a `Vec<Slot>`. The method sent is the one for a single block. -/
def getBlocks (startSlot : UInt64) : Except SolanaRpcError (List UInt64) := do
  match ← send .getBlock startSlot with
  | .slots slots => .ok slots
  | .block _ => .error .serDe

end SolanaRpcClient

end Lightbringer
