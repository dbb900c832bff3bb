import PwndaWallet.Algo.Encode
import PwndaWallet.Algo.EncodeSound
import PwndaWallet.Aptos.History
import PwndaWallet.Aptos.HistorySound
import PwndaWallet.Aptos.Send
import PwndaWallet.Aptos.SendSound
import PwndaWallet.Bch.CashAddr
import PwndaWallet.Bch.CashAddrSound
import PwndaWallet.Bch.Legacy
import PwndaWallet.Bch.Signer
import PwndaWallet.Bch.SignerSound
import PwndaWallet.Bch.Transaction
import PwndaWallet.Bch.TransactionSound
import PwndaWallet.Bridge.Privileged
import PwndaWallet.Bridge.Sweep
import PwndaWallet.Bridge.SweepSound
import PwndaWallet.Btc.Rbf
import PwndaWallet.Btc.RbfSound
import PwndaWallet.Btc.Transaction
import PwndaWallet.Cardano.Cbor
import PwndaWallet.Cardano.Transfer
import PwndaWallet.Cardano.TransferSound
import PwndaWallet.Convert.History
import PwndaWallet.Convert.Pipeline
import PwndaWallet.Convert.PipelineSound
import PwndaWallet.Convert.Seed
import PwndaWallet.Desk.AbortSound
import PwndaWallet.Desk.AcceptSound
import PwndaWallet.Desk.Acts
import PwndaWallet.Desk.Arm
import PwndaWallet.Desk.ArmSound
import PwndaWallet.Desk.BuySound
import PwndaWallet.Desk.Commands
import PwndaWallet.Desk.Conduct
import PwndaWallet.Desk.ConductSound
import PwndaWallet.Desk.Conductor
import PwndaWallet.Desk.Crypto
import PwndaWallet.Desk.DeskStore
import PwndaWallet.Desk.DeskStoreSound
import PwndaWallet.Desk.DriveSound
import PwndaWallet.Desk.Engine
import PwndaWallet.Desk.Leash
import PwndaWallet.Desk.LockSound
import PwndaWallet.Desk.M2Sound
import PwndaWallet.Desk.Op
import PwndaWallet.Desk.Reclaim
import PwndaWallet.Desk.ReclaimSound
import PwndaWallet.Desk.RecordSound
import PwndaWallet.Desk.RecoverySound
import PwndaWallet.Desk.Refund
import PwndaWallet.Desk.RefundSound
import PwndaWallet.Desk.Registry
import PwndaWallet.Desk.RegistrySound
import PwndaWallet.Desk.Rehydrate
import PwndaWallet.Desk.SellSound
import PwndaWallet.Desk.StandDownSound
import PwndaWallet.Desk.StatusSound
import PwndaWallet.Desk.Store
import PwndaWallet.Desk.Timelock
import PwndaWallet.Desk.WaitSound
import PwndaWallet.Desk.Watch
import PwndaWallet.Desk.WindowSound
import PwndaWallet.Desk.Wire
import PwndaWallet.Desk.World
import PwndaWallet.Evm.Send
import PwndaWallet.Evm.SendSound
import PwndaWallet.Evm.SignedTx
import PwndaWallet.Evm.SignedTxSound
import PwndaWallet.Evm.Signer
import PwndaWallet.Evm.SignerSound
import PwndaWallet.Fees.AmountSound
import PwndaWallet.Fees.Ledger
import PwndaWallet.Fees.LedgerSound
import PwndaWallet.Fees.OnceSound
import PwndaWallet.Fees.OwedSound
import PwndaWallet.Fees.ReserveSound
import PwndaWallet.Fees.Runs
import PwndaWallet.Fees.Schedule
import PwndaWallet.Fees.Tries
import PwndaWallet.Fees.TriesSound
import PwndaWallet.Fees.Watcher
import PwndaWallet.Fees.WatcherSound
import PwndaWallet.Hedera.Memory
import PwndaWallet.Hedera.MemorySound
import PwndaWallet.History.Merge
import PwndaWallet.History.MergeSound
import PwndaWallet.History.Reports
import PwndaWallet.History.Store
import PwndaWallet.Intents.Attempts
import PwndaWallet.Intents.AttemptsSound
import PwndaWallet.Intents.Broadcast
import PwndaWallet.Intents.BroadcastSound
import PwndaWallet.Intents.EvmDeposit
import PwndaWallet.Intents.EvmDepositSound
import PwndaWallet.Intents.Execute
import PwndaWallet.Intents.OneDepositSound
import PwndaWallet.Intents.Quote
import PwndaWallet.Intents.QuoteSound
import PwndaWallet.Intents.Session
import PwndaWallet.Intents.SessionDeposit
import PwndaWallet.Intents.SessionSound
import PwndaWallet.Intents.Signer
import PwndaWallet.Intents.SignerSound
import PwndaWallet.Intents.SwapSession
import PwndaWallet.Intents.SwapSessionSound
import PwndaWallet.Intents.Trade
import PwndaWallet.Lib.Bits
import PwndaWallet.Lib.Books
import PwndaWallet.Lib.Climb
import PwndaWallet.Lib.Decimal
import PwndaWallet.Lib.Double
import PwndaWallet.Lib.Fs
import PwndaWallet.Lib.Ip
import PwndaWallet.Lib.Js
import PwndaWallet.Lib.Json
import PwndaWallet.Lib.Largest
import PwndaWallet.Lib.Machine
import PwndaWallet.Lib.Monitor
import PwndaWallet.Lib.Numeral
import PwndaWallet.Lib.Path
import PwndaWallet.Lib.Pattern
import PwndaWallet.Lib.Poll
import PwndaWallet.Lib.Prog
import PwndaWallet.Lib.Radix
import PwndaWallet.Lib.Result
import PwndaWallet.Lib.Rlp
import PwndaWallet.Lib.Safe
import PwndaWallet.Lib.Slice
import PwndaWallet.Lib.Solo
import PwndaWallet.Lib.Substitute
import PwndaWallet.Lib.Sys
import PwndaWallet.Lib.Text
import PwndaWallet.Lib.Trace
import PwndaWallet.Lib.Unicode
import PwndaWallet.Lib.Uri
import PwndaWallet.Lib.Wire
import PwndaWallet.Lib.Wordlist
import PwndaWallet.Near.Transaction
import PwndaWallet.Near.TransactionSound
import PwndaWallet.Seed.CodecSound
import PwndaWallet.Seed.Electrum
import PwndaWallet.Seed.ElectrumSound
import PwndaWallet.Seed.Polyseed
import PwndaWallet.Seed.PolyseedSound
import PwndaWallet.Seed.Words
import PwndaWallet.Seed.Xelis
import PwndaWallet.Seed.Zano
import PwndaWallet.Seed.ZanoSound
import PwndaWallet.Send.Outcome
import PwndaWallet.Send.OutcomeSound
import PwndaWallet.Send.SuiTransfer
import PwndaWallet.Send.SuiTransferSound
import PwndaWallet.Sidecar.BidDoor
import PwndaWallet.Sidecar.BidDoorSound
import PwndaWallet.Sidecar.BidStates
import PwndaWallet.Sidecar.Descriptors
import PwndaWallet.Sidecar.DescriptorsSound
import PwndaWallet.Sidecar.Lanes
import PwndaWallet.Sidecar.Pipe
import PwndaWallet.Sidecar.PipeSound
import PwndaWallet.Snapshot.Restore
import PwndaWallet.Snapshot.RestoreSound
import PwndaWallet.Solana.Send
import PwndaWallet.Solana.SendSound
import PwndaWallet.Tron.Broadcast
import PwndaWallet.Tron.BroadcastSound
import PwndaWallet.Tron.Verify
import PwndaWallet.Tron.VerifySound
import PwndaWallet.Utxo.History
import PwndaWallet.Utxo.HistorySound
import PwndaWallet.Utxo.Risk
import PwndaWallet.Utxo.Scan
import PwndaWallet.Utxo.ScanSound
import PwndaWallet.Utxo.Spend
import PwndaWallet.Utxo.SpendSound
import PwndaWallet.Vault.Concurrent
import PwndaWallet.Vault.ConcurrentSound
import PwndaWallet.Vault.Entries
import PwndaWallet.Vault.FilesSound
import PwndaWallet.Vault.Flat
import PwndaWallet.Vault.KeysSound
import PwndaWallet.Vault.Keystore
import PwndaWallet.Vault.LensSound
import PwndaWallet.Vault.MergeSound
import PwndaWallet.Vault.Operations
import PwndaWallet.Vault.Removal
import PwndaWallet.Vault.RepairSound
import PwndaWallet.Vault.Schema
import PwndaWallet.Vault.Store
import PwndaWallet.Vault.Writes
import PwndaWallet.Xrp.Send
import PwndaWallet.Xrp.SendSound
import PwndaWallet.Send.Quotes
import PwndaWallet.Send.QuotesSound
