/-
**The parser of `src/ingester/parser/mod.rs`, translated.**

The three functions of the source, each as the source computes it: the loops are `for` loops
over the same lists, a `?` is a bind that stops at the first error, and the indexing of
`pubkey_array` is `Photon.index`, which panics out of bounds as Rust's indexing does.  The one
statement left out is the `debug!` log on the first match of a transaction, which changes no
result.  The decoders `Changelogs::deserialize` and `PublicTransactionEvent::deserialize` are
the parameter `Photon.Deserializers`.

Main definitions:

* `Photon.extractPathUpdates` — `extract_path_updates`;
* `Photon.parsePublicTransactionEvent` — `parse_public_transaction_event`;
* `Photon.parseTransaction` — `parse_transaction`.

What they compute is stated and proved in `Photon.Assembler` and `Photon.Scanner`.
-/

import Photon.Outcome
import Photon.Types

set_option relaxedAutoImplicit false
set_option autoImplicit false

namespace Photon

/-- `extract_path_updates`: a path update for each path of each version-1 change-log event, in
event order and then in path order, with the event's tree id and sequence number. -/
def extractPathUpdates (changelogs : Changelogs) : List PathUpdate :=
  changelogs.changelogs.flatMap fun
    | .v1 cl =>
      let treeId := cl.id
      cl.paths.map fun p =>
        { tree := treeId
          path := p.map fun node => { node := node.node, index := node.index }
          seq := cl.seq }

/-- `parse_public_transaction_event`: the input accounts with the tree their index names in
`pubkey_array`, the output accounts paired by position with the path updates, and the nodes of
every path with their levels. -/
def parsePublicTransactionEvent (tx : Signature) (slot : UInt64)
    (transactionEvent : PublicTransactionEvent) (changelogs : Changelogs) :
    Outcome IngesterError StateUpdate := do
  let mut stateUpdate := StateUpdate.new
  for (account, hash) in
      transactionEvent.inputCompressedAccounts.zip transactionEvent.inputCompressedAccountHashes do
    let enrichedAccount : EnrichedAccount :=
      { account := account.compressedAccount
        tree := ← index transactionEvent.pubkeyArray account.merkleTreePubkeyIndex
        seq := none
        slot
        hash }
    stateUpdate := { stateUpdate with inAccounts := stateUpdate.inAccounts ++ [enrichedAccount] }
  let pathUpdates := extractPathUpdates changelogs
  if transactionEvent.outputCompressedAccounts.length != pathUpdates.length then
    throw <| .malformedEvent
      s!"Number of path updates did not match the number of output accounts (txn: {tx})"
  for ((outAccount, path), hash) in
      (transactionEvent.outputCompressedAccounts.zip pathUpdates).zip
        transactionEvent.outputCompressedAccountHashes do
    let enrichedAccount : EnrichedAccount :=
      { account := outAccount, tree := ⟨path.tree⟩, seq := some path.seq, slot, hash }
    stateUpdate := { stateUpdate with outAccounts := stateUpdate.outAccounts ++ [enrichedAccount] }
  stateUpdate := { stateUpdate with
    pathNodes := stateUpdate.pathNodes ++ pathUpdates.flatMap fun p =>
      let treeHeight := p.path.length
      p.path.enum.map fun (i, node) =>
        { node, slot, tree := p.tree, seq := p.seq, level := i, treeDepth := treeHeight } }
  return stateUpdate

/-- `parse_transaction`: scan the ordered instructions of each group for an account-compression
instruction that lists the noop program and is followed by two noop instructions; decode the
payloads of the two noop instructions, assemble them, and merge the updates of all matches. -/
def parseTransaction (d : Deserializers) (tx : TransactionInfo) (slot : UInt64) :
    Outcome IngesterError StateUpdate := do
  let mut stateUpdates : List StateUpdate := []
  for instructionGroup in tx.instructionGroups do
    let orderedIntructions :=
      instructionGroup.outerInstruction :: instructionGroup.innerInstructions
    for (index, instruction) in orderedIntructions.enum do
      if h : orderedIntructions.length - index > 2 then
        let nextInstruction := orderedIntructions[index + 1]
        let nextNextInstruction := orderedIntructions[index + 2]
        if accountCompressionProgramId == instruction.programId
            && instruction.accounts.contains noopProgramId
            && nextInstruction.programId == noopProgramId
            && nextNextInstruction.programId == noopProgramId then
          let changelogs ← Outcome.ofExcept <| (d.changelogs nextInstruction.data).mapError
            fun e => .parserError s!"Failed to deserialize Changelogs: {e}"
          let publicTransactionEvent ← Outcome.ofExcept <|
            (d.publicTransactionEvent nextNextInstruction.data).mapError
              fun e => .parserError s!"Failed to deserialize PublicTransactionEvent: {e}"
          let stateUpdate ←
            parsePublicTransactionEvent tx.signature slot publicTransactionEvent changelogs
          stateUpdates := stateUpdates ++ [stateUpdate]
  return StateUpdate.mergeUpdates stateUpdates

end Photon
