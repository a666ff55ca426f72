import ArbBot.Building.Malformed
import ArbBot.Building.TipLast
import ArbBot.Persistence.Lifetimes

/-!
# What a transaction trades

A worker builds the transaction of the item it holds, with the compute limit for the item's
number of hops. `SwapBytes` says what the bytes of the swap instruction may be for an
opportunity, and `built_for_opportunity` that every transaction a worker builds carries such
bytes for an opportunity that was checked.
-/

namespace ArbBot

open Foundation Sdk

/-! ## The compute limit -/

/-- `lookup_cu_limit`: the limits start at two hops, and the last one is for all longer
routes. The position is inside the list, so the default is never taken. -/
def lookupCuLimit (hopCount : Nat) (cuLimits : List UInt32) : UInt32 :=
  if cuLimits.isEmpty then 200000
  else cuLimits.getD (min (hopCount - 2) (cuLimits.length - 1)) 0

/-! ## The bytes of a swap -/

/-- The data of the swap instruction for an opportunity: what Metis answered for it, what it
answered for a related opportunity of the same amount, or an answer to a related opportunity with
the two amounts of this one in the place of its own. -/
inductive SwapBytes (metis : MetisAnswers) (cfg : Settings) (merged : Merged) :
    List UInt8 → Prop
  | answered {swapIxs : SwapInstructionsResponse} {data : List UInt8} :
    metis.swapInstructions merged.quote swapIxs →
    cfg.codec.decode swapIxs.swapInstruction.data = some data → SwapBytes metis cfg merged data
  /-- A cached variant, as Metis gave it. -/
  | variant {sig : U128} {swapIxs : SwapInstructionsResponse} {data : List UInt8} :
    Related metis cfg merged sig → AnsweredFor metis cfg sig merged.amount swapIxs →
    cfg.codec.decode swapIxs.swapInstruction.data = some data → SwapBytes metis cfg merged data
  | patched {sig : U128} {amount : UInt64} {base : SwapInstructionsResponse} {data : List UInt8}
    {offset : Nat} :
    Related metis cfg merged sig → AnsweredFor metis cfg sig amount base →
    cfg.codec.decode base.swapInstruction.data = some data →
    window data offset 8 = le64 amount → offset + 16 ≤ data.length →
    SwapBytes metis cfg merged
      (overwrite data offset (le64 merged.amount ++ le64 (onChainFloor merged.amount)))

section Bytes

variable {metis : MetisAnswers} {cfg : Settings} {merged : Merged}
  {swapIxs : SwapInstructionsResponse} {data : List UInt8}

/-- The bytes of a backed instruction. -/
theorem IsInstruction.bytes (instruction : IsInstruction metis cfg merged swapIxs)
    (decoded : cfg.codec.decode swapIxs.swapInstruction.data = some data) :
    SwapBytes metis cfg merged data := by
  cases instruction with
  | answered answer => exact .answered answer decoded
  | variant related captured => exact .variant related captured decoded
  | @patched sig amount base bytes inOff outOff related captured baseDecoded found =>
      obtain ⟨rfl, inside, held⟩ := discoverOffsets_inside found
      have long : ∀ x : UInt64, (le64 x).length = 8 := fun x => length_le64 x
      have both : ArbBot.patched bytes inOff (inOff + 8) merged.amount
          (onChainFloor merged.amount) =
          overwrite bytes inOff (le64 merged.amount ++ le64 (onChainFloor merged.amount)) := by
        have fits : inOff +
            ((le64 merged.amount).length + (le64 (onChainFloor merged.amount)).length) ≤
              bytes.length := by
          rw [long, long]
          exact inside
        rw [ArbBot.patched, ← overwrite_append (by rw [List.length_append]; exact fits), long]
      rw [SwapInstructionsResponse.data_withData, TextCodec.decode_encode,
        Option.some.injEq] at decoded
      rw [← decoded, both]
      exact .patched related captured baseDecoded held inside

end Bytes

/-! ## The transaction of a worker -/

section Build

variable {Hash Keypair : Type} {sdk : SolanaSdk Hash Keypair} {cache : AltCache}
  {getAccount : Pubkey → Except String (List UInt8)} {payer : Keypair} {recentBlockhash : Hash}
  {choice : Fin jitoTipAccounts.length} {cuLimits : List UInt32} {tx : Transaction}
  {serde : Serde} {cfg : Settings} {metis : MetisAnswers} {b : Bot} {task : Task}
  {item : ReadyInstruction} {grant : Grant}

/-- **Every transaction trades a checked opportunity.** In every lifetime, when a worker builds
the transaction of its item, there is an opportunity whose round trip was checked past the
threshold such that the transaction sets the compute limit for its number of hops, swaps with
bytes for its amount and pays the tip to the chosen tip account, in this order. The bytes are
for just its amount and floor, unless Metis gave them for a related opportunity of the same
amount. -/
theorem built_for_opportunity (reads : serde.ReadsBack)
    (reached : (botMachine serde cfg).Reach metis.AllowsStep b)
    (member : task ∈ b.pool.tasks) (building : task.stage = .build item grant)
    (keeps : sdk.KeepsOrder)
    (tips : (altHistory sdk.showPubkey (jitoTipPubkeys sdk)).Reach Machine.anyStep cache)
    (built : (buildArbTransaction sdk cfg.codec item.swapIxs payer jitoTipLamports
      (lookupCuLimit item.hopCount cuLimits) recentBlockhash cache getAccount choice).1 =
        .ok tx) :
    ∃ pair merged hops alts tables budget swapIx tip limit swap transfer,
      Opportunity metis cfg pair merged ∧ merged.quote.routePlan = .array hops ∧
      IsInstruction metis cfg merged item.swapIxs ∧
      altAddresses sdk item.swapIxs.addressLookupTableAddresses = .ok alts ∧
      (fetchAll sdk getAccount alts cache).1 = .ok tables ∧
      sdk.parsePubkey "ComputeBudget111111111111111111111111111111" = .ok budget ∧
      toSdkInstruction sdk cfg.codec item.swapIxs.swapInstruction = .ok swapIx ∧
      sdk.parsePubkey (jitoTipAccounts.get choice) = .ok tip ∧
      tx.message.instructions = [limit, swap, transfer] ∧
      CompiledAs tables tx.message
        { programId := budget
          accounts := []
          data := 0x02 :: leBytes 4 (lookupCuLimit hops.length cuLimits).toNat } limit ∧
      CompiledAs tables tx.message swapIx swap ∧ SwapBytes metis cfg merged swap.data ∧
      CompiledAs tables tx.message (sdk.transfer (sdk.pubkey payer) tip jitoTipLamports)
        transfer := by
  have backed := (items_backed reads reached).2 task member
  have held := backed.2
  rw [building] at held
  rcases held with ⟨merged, ⟨pair, opportunity⟩, instruction, hopCount⟩
  rcases opportunity.hops with ⟨hops, plan, length⟩
  rcases parts_of_built keeps tips built with
    ⟨alts, tables, budget, swapIx, tip, limit, swap, transfer, parsed, fetched, -, limitParsed,
      converted, chosen, shape, asLimit, asSwap, asTransfer⟩
  rw [hopCount, length] at asLimit
  have bytes : SwapBytes metis cfg merged swap.data := by
    rw [asSwap.1]
    exact instruction.bytes (toSdkInstruction_eq_ok_iff.mp converted).2.2
  exact ⟨pair, merged, hops, alts, tables, budget, swapIx, tip, limit, swap, transfer, opportunity,
    plan, instruction, parsed, fetched, limitParsed, converted, chosen, shape, asLimit, asSwap,
    bytes, asTransfer⟩

end Build

/-- A worker builds the swap of the table. -/
def Stage.buildsTable : Stage → Bool
  | .build item _ => item.swapIxs = tableSwap
  | _ => false

set_option maxRecDepth 20000 in
/-- A round trip through two pools is found, answered and built. -/
theorem built_for_opportunity_table :
    ∃ pair merged tables limit swap transfer, Opportunity poolsMetis oneSlot pair merged ∧
      tableMessage.instructions = [limit, swap, transfer] ∧
      CompiledAs tables tableMessage
        { programId := computeBudgetKey, accounts := [], data := 0x02 :: leBytes 4 400000 } limit ∧
      SwapBytes poolsMetis oneSlot merged swap.data ∧
      CompiledAs tables tableMessage (tableTransfer tablePayer tableTip jitoTipLamports)
        transfer := by
  have ended : ((pipeline oneSlot).exec Machine.anyStep (firstBot emptySerde oneSlot).pool
      (arrival 1 ++ acquisition 5)).any fun p => p.tasks.any (·.stage.buildsTable) := by decide
  rcases (Option.any_eq_true _ _).mp ended with ⟨p, played, found⟩
  rcases List.any_eq_true.mp found with ⟨⟨pending, stage⟩, member, builds⟩
  have answers : ∀ label ∈ arrival 1 ++ acquisition 5, ∀ task,
      poolsMetis.Allows task label.2 := by
    simp [arrival, acquisition, MetisAnswers.Allows, poolsMetis]
  have reached := reach_exec (start_firstBot emptySerde oneSlot) answers played
  cases stage with
  | build item grant =>
      have swap := of_decide_eq_true builds
      have decoded : deserializeAltAddresses (tableRaw [tableTip, wrappedSol] jupiterTable) =
          .ok [tableTip, wrappedSol] := by
        decide
      have kept : [tableTip, wrappedSol].filter
          (fun addr => !(jitoTipPubkeys tableSdk).contains addr) = [wrappedSol] := by
        decide
      have limit : ∀ hopCount, lookupCuLimit hopCount [400000] = 400000 := by
        simp [lookupCuLimit]
      have built := table_built (jitoTipPubkeys tableSdk) decoded kept
      rw [← swap, ← limit item.hopCount] at built
      have program : tableSdk.parsePubkey "ComputeBudget111111111111111111111111111111" =
          .ok computeBudgetKey := by
        decide
      have tip : tableSdk.parsePubkey (jitoTipAccounts.get ⟨0, by decide⟩) = .ok tableTip := by
        decide
      rcases built_for_opportunity readsBack_emptySerde reached member rfl tableSdk_keepsOrder
        (Machine.Reach.ofStart rfl) built with
        ⟨pair, merged, hops, alts, tables, budget, swapIx, tip', limit', swap', transfer,
          opportunity, plan, -, -, -, program', -, tip'', shape, asLimit, -, bytes, asTransfer⟩
      obtain rfl := Except.ok.inj (program.symm.trans program')
      obtain rfl := Except.ok.inj (tip.symm.trans tip'')
      rw [limit] at asLimit
      exact ⟨pair, merged, tables, limit', swap', transfer, opportunity, shape, asLimit, bytes,
        asTransfer⟩
  | _ => cases builds

end ArbBot
