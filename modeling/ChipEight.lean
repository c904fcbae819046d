import ChipEight.Main
import ChipEight.Machine.Event
import ChipEight.Proofs.Calls
import ChipEight.Proofs.KeyWait
import ChipEight.Proofs.Table
import ChipEight.Proofs.Faults
import ChipEight.Proofs.Picture
import ChipEight.Proofs.Untimed
import ChipEight.Proofs.Laps
import ChipEight.Proofs.Sessions
import ChipEight.Proofs.Bounds
import ChipEight.Proofs.Guarded
import ChipEight.Proofs.Breaches
import ChipEight.Proofs.Slots
import ChipEight.Proofs.Restart
import ChipEight.Proofs.Hexadecimal
import ChipEight.Proofs.Mnemonics
import ChipEight.Proofs.Rows
import ChipEight.Proofs.Preview
import ChipEight.Proofs.Lookalikes
import ChipEight.Proofs.Batches
import ChipEight.Proofs.RandomWords
import ChipEight.Proofs.Reports
import ChipEight.Proofs.Decimal
import ChipEight.Proofs.Arguments
import ChipEight.Proofs.Surroundings
import ChipEight.Proofs.Setups
import ChipEight.Proofs.Interleaving
import ChipEight.Proofs.DeadEnds
import ChipEight.Proofs.Requests
import ChipEight.Proofs.Countdown
import ChipEight.Proofs.Collisions
import ChipEight.Proofs.SavedRegisters
import ChipEight.Proofs.Entries
import ChipEight.Proofs.Settings
import ChipEight.Proofs.HeldKeys
import ChipEight.Proofs.Dumps
import ChipEight.Proofs.Glyphs
import ChipEight.Proofs.WaitLog
import ChipEight.Proofs.Rounds
import ChipEight.Proofs.Buzzer
