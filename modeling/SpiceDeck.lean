import SpiceDeck.Deck.Draft
import SpiceDeck.Files.Scratch
import SpiceDeck.Main
import SpiceDeck.Proofs.Deck.Decoding
import SpiceDeck.Proofs.Deck.FullSink
import SpiceDeck.Proofs.Deck.Passes
import SpiceDeck.Proofs.Deck.Relay
import SpiceDeck.Proofs.Deck.Reports
import SpiceDeck.Proofs.Device.Events
import SpiceDeck.Proofs.Files.Confinement
import SpiceDeck.Proofs.Layout.Filling
import SpiceDeck.Proofs.Statement.Groups
import SpiceDeck.Proofs.Statement.Settling
import SpiceDeck.Statement.Sequence
import SpiceDeck.Proofs.Layout.Fewest
import SpiceDeck.Proofs.Layout.Overlong
import SpiceDeck.Proofs.Layout.Widening
import SpiceDeck.Proofs.Deck.Widths
import SpiceDeck.Proofs.Command.Arguments
import SpiceDeck.Proofs.Command.Routes
import SpiceDeck.Proofs.Statement.Draining
import SpiceDeck.Proofs.Statement.Lookahead
import SpiceDeck.Proofs.Statement.Joining
import SpiceDeck.Proofs.Deck.Offers
import SpiceDeck.Proofs.Deck.Drafts
import SpiceDeck.Proofs.Command.Listings
import SpiceDeck.Proofs.Command.Interchange
import SpiceDeck.Proofs.Query.Hierarchy
import SpiceDeck.Proofs.Command.SameLines
