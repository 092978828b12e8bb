import RecordFeed.Main
import RecordFeed.Proofs.Files.Descent
import RecordFeed.Proofs.Files.Preorder
import RecordFeed.Proofs.Files.Requests
import RecordFeed.Proofs.Messages.Draining
import RecordFeed.Proofs.Messages.Joined
import RecordFeed.Proofs.Messages.Limits
import RecordFeed.Proofs.Printing.Loop
import RecordFeed.Proofs.Printing.Output
import RecordFeed.Proofs.Printing.Reprint
import RecordFeed.Proofs.Records.Conduct
import RecordFeed.Proofs.Records.Lockstep
import RecordFeed.Proofs.Records.Lossless
import RecordFeed.Proofs.Records.Restraint
import RecordFeed.Proofs.Records.Returning
import RecordFeed.Proofs.Redelivery.Precedence
import RecordFeed.Proofs.Redelivery.Stack
import RecordFeed.Proofs.Redelivery.Transparency
import RecordFeed.Proofs.Sessions.Balance
import RecordFeed.Proofs.Sessions.Closing
import RecordFeed.Proofs.Sessions.Handles
import RecordFeed.Proofs.Sessions.Recovery
import RecordFeed.Proofs.Sessions.Unstored
import RecordFeed.Proofs.Storage.Parts
import RecordFeed.Script
import RecordFeed.Proofs.Redelivery.Order
import RecordFeed.Proofs.Storage.Economy
import RecordFeed.Proofs.Records.Proportion
import RecordFeed.Proofs.Settings.DistinctKeys
import RecordFeed.Proofs.Settings.Reading
import RecordFeed.Proofs.Records.Splitting
import RecordFeed.Proofs.Settings.Merging
