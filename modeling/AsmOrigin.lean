import AsmOrigin.Main
import AsmOrigin.Proofs.ClassifyFile
import AsmOrigin.Proofs.Cleaning
import AsmOrigin.Proofs.Confidences
import AsmOrigin.Proofs.Demonstration
import AsmOrigin.Proofs.NearestCentroid
import AsmOrigin.Proofs.Selection
import AsmOrigin.Proofs.Listing.Concatenation
import AsmOrigin.Proofs.Listing.Agreement
import AsmOrigin.Proofs.Listing.Coherence
import AsmOrigin.Proofs.Listing.DisjointOccurrences
import AsmOrigin.Proofs.Listing.Silence
import AsmOrigin.Proofs.Training.Bystanders
import AsmOrigin.Proofs.Training.Copies
import AsmOrigin.Proofs.Training.ExactMeans
import AsmOrigin.Proofs.Training.ListingRuns
import AsmOrigin.Proofs.Training.Reports
import AsmOrigin.Proofs.RoundTrips
import AsmOrigin.Proofs.Similarity.Range
import AsmOrigin.Proofs.Slots
